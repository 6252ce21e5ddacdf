import DevGate.Lib.Fold
import DevGate.Py.Hmac
import DevGate.Py.JsonRoundTrip

set_option autoImplicit false

/- scripts/secret-scan.sh, from the chosen scope on: what the scanner's runs leave is
data, and so is whether the streams and the report file can be written. -/
namespace DevGate.Gate.SecretScan

open Py

/-- A scope, and the HISTORY_MODE it comes to. -/
inductive Scope where
  | tree
  | range
  | all
  deriving DecidableEq

def Scope.name : Scope → Str
  | .tree => "tree"
  | .range => "range"
  | .all => "all"

/-- One run of the scanner: its exit code, and its report file. -/
structure Invocation where
  rc : Nat
  report : Option Bytes

structure World where
  missing : Text
  allowlist : Option Bytes
  scope : Scope
  baseResolves : Bool
  scanner : Scope → Invocation
  /-- `--report FILE`: whether the file can be written. -/
  report : Option Bool
  /-- Whether stdout can encode a line. -/
  writes : Text → Bool

structure Outcome where
  exit : Nat
  stdout : List Text
  stderr : List Text
  report : Option Value

/-- An allowlist entry. -/
structure Entry where
  rule : Str
  path : Str
  reason : Str

def scanError : ExcClass := .user "SystemExit" .exception

/-- `e.get(field)`, a string that is not blank. -/
def entryField (i : Nat) (e : List (Str × Value)) (field : Str) : Except Exc Str :=
  match Dict.get? e field with
  | some (.str s) =>
      if Str.strip s = [] then .error ⟨scanError, ["[secret-scan] allowlist entry ", .str (.int i),
        " is missing ", .repr (.str field),
        " — a tolerated finding needs a rule, a path, and a reason"]⟩
      else .ok s
  | _ => .error ⟨scanError, ["[secret-scan] allowlist entry ", .str (.int i),
      " is missing ", .repr (.str field), " — a tolerated finding needs a rule, a path, and a reason"]⟩

def readEntry (indexed : Value × Nat) : Except Exc Entry :=
  match indexed.1 with
  | .dict e => do
      let rule ← entryField indexed.2 e "rule"
      let path ← entryField indexed.2 e "path"
      let reason ← entryField indexed.2 e "reason"
      return ⟨rule, path, reason⟩
  | _ => .error ⟨scanError, ["[secret-scan] allowlist entry ", .str (.int indexed.2),
      " is not an object"]⟩

/-- The validation of the allowlist; both programs read the same file. -/
def readAllowlist (allowlist : Option Bytes) : Except Exc (List Entry) :=
  match allowlist with
  | none => .ok []
  | some bytes =>
      match Json.loadText bytes with
      | .error e => .error ⟨scanError, "[secret-scan] allowlist is not valid JSON: " :: e.msg⟩
      | .ok doc =>
          match doc.field? "entries" with
          | some (.list entries) => (entries.zipIdx).mapM readEntry
          | _ => .error ⟨scanError, ["[secret-scan] allowlist must be an object with an 'entries' list"]⟩

/-- HISTORY_MODE. -/
def World.mode (w : World) : Scope :=
  if w.scope = .range ∧ w.baseResolves = false then .all else w.scope

def World.scopeLine (w : World) : Text :=
  match w.scope with
  | .tree => ["[secret-scan] scope: working tree only"]
  | .all => ["[secret-scan] scope: full history (all refs), plus the working tree"]
  | .range =>
      if w.baseResolves then ["[secret-scan] scope: commits in range, plus the working tree"]
      else ["[secret-scan] no usable base commit for range (first push or forced update) — falling back to the full history sweep (--all), plus the working tree"]

/-- The scanner's runs: the working tree, and the history outside the tree scope. -/
def World.scans (w : World) : List Invocation :=
  w.scanner .tree :: (if w.mode = .tree then [] else [w.scanner w.mode])

/-- A finding is a location. -/
structure Finding where
  rule : Value
  path : Value
  line : Value
  commit : Value

/-- `v[:12]`. -/
def upTo12 (v : Value) : Except Exc Value :=
  match v with
  | .str s => .ok (.str (s.take 12))
  | .list vs => .ok (.list (vs.take 12))
  | other => .error ⟨.typeError, ["'", other.typeName, "' object is not subscriptable"]⟩

/-- One element of a report. -/
def findingOf (f : Value) : Except Exc Finding := do
  let rule := Value.orElse (← f.get "RuleID") (Value.orElse (← f.get "Rule") (.str "unknown"))
  let path := Value.orElse (← f.get "File") (.str "unknown")
  let line := Value.orElse (← f.get "StartLine") (.int 0)
  let commit ← upTo12 (Value.orElse (← f.get "Commit") (.str ""))
  return ⟨rule, path, line, Value.orElse (some commit) (.str "working tree")⟩

/-- `json.load`, or an empty list where it raises. -/
def loaded (bytes : Bytes) : Value :=
  match Json.loadText bytes with
  | .ok v => v
  | .error _ => .list []

/-- The loop over `loaded or []`. -/
def findingsIn (i : Invocation) : Except Exc (List Finding) :=
  match i.report with
  | none => .ok []
  | some bytes =>
      if (loaded bytes).truthy then do (← (loaded bytes).iter).mapM findingOf else .ok []

/-- `covered`. -/
def covered (entries : List Entry) (f : Finding) : Bool :=
  entries.any (fun e => f.rule = .str e.rule ∧ f.path = .str e.path)

def matched (findings : List Finding) (e : Entry) : Bool :=
  findings.any (fun f => f.rule = .str e.rule ∧ f.path = .str e.path)

def findingLine (entries : List Entry) (f : Finding) : Text :=
  ["[secret-scan] ", .lit (if covered entries f then "allowlisted" else "FINDING"), ": ",
    .str f.rule, " ", .str f.path, ":", .str f.line, " (", .str f.commit, ")"]

def staleLine (mode : Scope) (e : Entry) : Text :=
  if mode = .all then
    ["[secret-scan] allowlist stale: no finding matches ", e.rule, " ", e.path,
      " anywhere in the history — remove the entry or re-check it. Reason on file: ", e.reason]
  else
    ["[secret-scan] allowlist: ", e.rule, " ", e.path,
      " not matched in this scope (may be stale — run with --all to settle it)"]

def summary (entries : List Entry) (findings : List Finding) : List Text :=
  [["[secret-scan] scanned ", .str (.int findings.length), " finding(s): ",
      .str (.int (findings.countP (covered entries))), " allowlisted, ",
      .str (.int (findings.countP (fun f => !covered entries f))), " to fix"],
    ["[secret-scan] allowlist: ", .str (.int entries.length), " entry/entries, ",
      .str (.int (entries.countP (matched findings))), " matched"]]

/-- The lines printed before the verdict. -/
def lines (mode : Scope) (entries : List Entry) (findings : List Finding) : List Text :=
  findings.map (findingLine entries) ++
    ((entries.filter (fun e => !matched findings e)).map (staleLine mode) ++
      summary entries findings)

def okLine : Text := ["[secret-scan] OK: nothing to fix in the scanned scope"]

def findingDoc (f : Finding) : Value :=
  .dict [("rule", f.rule), ("path", f.path), ("line", f.line), ("commit", f.commit)]

def reportDoc (scope mode : Scope) (entries : List Entry) (findings : List Finding) : Value :=
  .dict [("scope", .str scope.name), ("history_mode", .str mode.name),
    ("allowlist_entries", .int entries.length),
    ("allowlist_matched", .int (entries.countP (matched findings))),
    ("findings", .list (findings.map findingDoc)),
    ("uncovered", .int (findings.countP (fun f => !covered entries f)))]

/-- The second program, over the scanner's reports. -/
def evaluate (w : World) (entries : List Entry) : Outcome :=
  match w.scans.mapM findingsIn with
  | .error e => ⟨1, [w.scopeLine], [e.msg], none⟩
  | .ok per =>
      let findings := per.flatten
      let shown := lines w.mode entries findings
      if shown.all w.writes = false then
        ⟨1, w.scopeLine :: shown.takeWhile w.writes, [["UnicodeEncodeError"]], none⟩
      else if w.report = some false then ⟨1, w.scopeLine :: shown, [["OSError"]], none⟩
      else
        let written := w.report.map (fun _ => reportDoc w.scope w.mode entries findings)
        if findings.all (covered entries) then
          ⟨0, w.scopeLine :: (shown ++ [okLine]), [],
            written⟩
        else
          ⟨1, w.scopeLine :: shown, [["[secret-scan] FAIL: ",
            .str (.int (findings.countP (fun f => !covered entries f))),
            " finding(s) not covered by a disposition"]], written⟩

/-- Whether the scanner says it found something and left no report. -/
def Invocation.unreported (i : Invocation) : Bool :=
  i.rc = 1 && (i.report.getD []).isEmpty

def secretScan (w : World) : Outcome :=
  if w.missing ≠ [] then ⟨2, [], ["[secret-scan] scanner unusable: not on PATH: " :: w.missing], none⟩
  else match readAllowlist w.allowlist with
    | .error e => ⟨3, [], [e.msg], none⟩
    | .ok entries =>
        match (w.scans.map Invocation.rc).find? (fun rc => decide (1 < rc)) with
        | some rc => ⟨2, [w.scopeLine], [["[secret-scan] scanner unusable: gitleaks exited ",
            .str (.int rc), " — not reporting this run as clean"]], none⟩
        | none =>
            if w.scans.any Invocation.unreported then
              ⟨2, [w.scopeLine], [["[secret-scan] scanner unusable: gitleaks reported findings but wrote no report"]], none⟩
            else evaluate w entries

/-- A report that cannot be read, or reads as an empty or false value. -/
def Blank (bytes : Bytes) : Prop := (loaded bytes).truthy = false

/-- The run found nothing, or says what it found. -/
def Answered (i : Invocation) : Prop :=
  i.rc = 0 ∨ (i.rc = 1 ∧ ∃ bytes fs, i.report = some bytes ∧
    Json.loadText bytes = .ok (.list fs) ∧ fs ≠ [])

/-- Every finding of the report is on the allowlist, rule and path. -/
def AllCovered (entries : List Entry) (i : Invocation) : Prop :=
  ∀ bytes fs, i.report = some bytes → Json.loadText bytes = .ok (.list fs) →
    ∀ f ∈ fs, ∃ finding, findingOf f = .ok finding ∧
      ∃ e ∈ entries, finding.rule = .str e.rule ∧ finding.path = .str e.path

/-- Exit code 0 means a clean scope. -/
def Truthful (w : World) : Prop :=
  (secretScan w).exit = 0 → ∃ entries, readAllowlist w.allowlist = .ok entries ∧
    ∀ i ∈ w.scans, Answered i ∧ AllCovered entries i

/-- The fields a finding is located by. -/
def locationKeys : List Str := ["RuleID", "Rule", "File", "StartLine", "Commit"]

/-- Findings at the same place: only other fields differ, such as Secret and Match. -/
def SamePlace (f g : Value) : Prop :=
  f = g ∨ ∃ kvs kvs', f = .dict kvs ∧ g = .dict kvs' ∧
    ∀ key ∈ locationKeys, Dict.get? kvs key = Dict.get? kvs' key

/-- Reports whose findings are at the same places. -/
def SameReport (a b : Option Bytes) : Prop :=
  a = b ∨ ∃ bytes bytes', a = some bytes ∧ b = some bytes' ∧ bytes ≠ [] ∧ bytes' ≠ [] ∧
    ∃ fs gs, loaded bytes = .list fs ∧ loaded bytes' = .list gs ∧ List.Forall₂ SamePlace fs gs

def SameRun (i j : Invocation) : Prop := i.rc = j.rc ∧ SameReport i.report j.report

/-- Nothing the gate says or writes depends on more than the places. -/
def Discreet (w : World) : Prop :=
  ∀ scanner : Scope → Invocation, (∀ m, SameRun (w.scanner m) (scanner m)) →
    secretScan { w with scanner := scanner } = secretScan w

theorem findingOf_congr {f g : Value} (same : SamePlace f g) : findingOf f = findingOf g := by
  rcases same with rfl | ⟨kvs, kvs', rfl, rfl, fields⟩
  · rfl
  · have ruleId := fields "RuleID" (by decide)
    have rule := fields "Rule" (by decide)
    have file := fields "File" (by decide)
    have line := fields "StartLine" (by decide)
    have commit := fields "Commit" (by decide)
    unfold findingOf
    simp only [Value.get_dict, ruleId, rule, file, line, commit]

theorem mapM_findingOf_congr {fs gs : List Value} (same : List.Forall₂ SamePlace fs gs) :
    fs.mapM findingOf = gs.mapM findingOf := by
  induction same with
  | nil => rfl
  | cons here _ ih => rw [List.mapM_cons, List.mapM_cons, findingOf_congr here, ih]

theorem findingsIn_congr {i j : Invocation} (same : SameRun i j) : findingsIn i = findingsIn j := by
  unfold findingsIn
  rcases same.2 with equal | ⟨bytes, bytes', left, right, -, -, fs, gs, read, read', places⟩
  · rw [equal]
  · rw [left, right]
    dsimp only
    rw [read, read']
    have truthy : (Value.list fs).truthy = (Value.list gs).truthy := by
      cases places <;> rfl
    rw [truthy]
    split
    · show fs.mapM findingOf = gs.mapM findingOf
      exact mapM_findingOf_congr places
    · rfl

theorem unreported_congr {i j : Invocation} (same : SameRun i j) : i.unreported = j.unreported := by
  unfold Invocation.unreported
  rw [same.1]
  rcases same.2 with equal | ⟨bytes, bytes', left, right, filled, filled', -⟩
  · rw [equal]
  · rw [left, right]
    rw [Option.getD_some, Option.getD_some, List.isEmpty_eq_false_iff.mpr filled,
      List.isEmpty_eq_false_iff.mpr filled']

theorem runs_congr {is js : List Invocation} (same : List.Forall₂ SameRun is js) :
    is.map Invocation.rc = js.map Invocation.rc ∧
      is.any Invocation.unreported = js.any Invocation.unreported ∧
      is.mapM findingsIn = js.mapM findingsIn := by
  induction same with
  | nil => exact ⟨rfl, rfl, rfl⟩
  | cons here _ ih =>
      obtain ⟨codes, unreported, findings⟩ := ih
      refine ⟨?_, ?_, ?_⟩
      · rw [List.map_cons, List.map_cons, here.1, codes]
      · rw [List.any_cons, List.any_cons, unreported_congr here, unreported]
      · rw [List.mapM_cons, List.mapM_cons, findingsIn_congr here, findings]

theorem discreet (w : World) : Discreet w := by
  intro scanner same
  have paired : List.Forall₂ SameRun w.scans (World.scans { w with scanner := scanner }) := by
    unfold World.scans
    refine .cons (same .tree) ?_
    show List.Forall₂ SameRun _ (if w.mode = .tree then [] else [scanner w.mode])
    split
    · exact .nil
    · exact .cons (same w.mode) .nil
  obtain ⟨codes, unreported, findings⟩ := runs_congr paired
  unfold secretScan evaluate
  rw [← codes, ← unreported, ← findings]
  rfl

/-- A report that is blank, or lists objects that are all covered. -/
def Settled (entries : List Entry) (i : Invocation) : Prop :=
  ∀ bytes, i.report = some bytes → Blank bytes ∨ ∃ fs, loaded bytes = .list fs ∧
    ∀ f ∈ fs, ∃ finding, findingOf f = .ok finding ∧ covered entries finding = true

/-- What the gate demands of its inputs. -/
structure Passing (w : World) (entries : List Entry) : Prop where
  tools : w.missing = []
  allowlist : readAllowlist w.allowlist = .ok entries
  codes : ∀ i ∈ w.scans, i.rc ≤ 1
  reported : ∀ i ∈ w.scans, i.rc = 1 → ∃ bytes, i.report = some bytes ∧ bytes ≠ []
  settled : ∀ i ∈ w.scans, Settled entries i
  printed : ∀ per, w.scans.mapM findingsIn = .ok per →
    (lines w.mode entries per.flatten).all w.writes = true
  written : w.report ≠ some false

theorem unreported_iff {i : Invocation} :
    i.unreported = false ↔ (i.rc = 1 → ∃ bytes, i.report = some bytes ∧ bytes ≠ []) := by
  unfold Invocation.unreported
  by_cases found : i.rc = 1
  · cases report : i.report with
    | none => simp [found]
    | some bytes => cases bytes <;> simp [found]
  · simp [found]

/-- Elements without `get` stop the loop. -/
theorem findingOf_ok {f : Value} {finding : Finding} (read : findingOf f = .ok finding) :
    ∃ kvs, f = .dict kvs := by
  unfold findingOf at read
  obtain ⟨found, got, -⟩ := bind_ok.mp read
  obtain ⟨kvs, shape, -⟩ := Value.get_ok.mp got
  exact ⟨kvs, shape⟩

/-- Only a list of objects is walked to its end. -/
theorem walked_list {v : Value} (truthy : v.truthy = true) {findings : List Finding}
    (read : (do (← v.iter).mapM findingOf) = .ok findings) :
    ∃ fs, v = .list fs ∧ fs.mapM findingOf = .ok findings := by
  obtain ⟨items, iterated, read⟩ := bind_ok.mp read
  cases v with
  | list fs =>
      cases iterated
      exact ⟨_, rfl, read⟩
  | dict kvs =>
      cases iterated
      cases kvs with
      | nil => cases truthy
      | cons kv rest =>
          rw [List.map_cons, List.mapM_cons] at read
          obtain ⟨finding, here, -⟩ := bind_ok.mp read
          obtain ⟨_, shape⟩ := findingOf_ok here
          cases shape
  | str s =>
      cases iterated
      cases s with
      | nil => cases truthy
      | cons c rest =>
          rw [List.map_cons, List.mapM_cons] at read
          obtain ⟨finding, here, -⟩ := bind_ok.mp read
          obtain ⟨_, shape⟩ := findingOf_ok here
          cases shape
  | null => cases iterated
  | bool b => cases iterated
  | int n => cases iterated
  | float x => cases iterated

theorem settled_iff {entries : List Entry} {i : Invocation} :
    Settled entries i ↔ ∃ findings, findingsIn i = .ok findings ∧
      ∀ f ∈ findings, covered entries f = true := by
  unfold Settled findingsIn Blank
  cases i.report with
  | none => simp
  | some bytes =>
      dsimp only
      by_cases truthy : (loaded bytes).truthy = true
      · rw [if_pos truthy]
        constructor
        · intro settled
          rcases settled bytes rfl with blank | ⟨fs, shape, each⟩
          · rw [truthy] at blank
            cases blank
          · rw [shape]
            show ∃ findings, fs.mapM findingOf = .ok findings ∧ _
            obtain ⟨findings, mapped⟩ := Fold.mapM_ends.mpr (fun f member =>
              (each f member).imp (fun _ found => found.1))
            refine ⟨findings, mapped, ?_⟩
            intro finding member
            obtain ⟨f, inside, same⟩ := (mapM_members mapped).2 finding member
            obtain ⟨finding', read, good⟩ := each f inside
            rw [same, Except.ok.injEq] at read
            rw [read]
            exact good
        · rintro ⟨findings, read, each⟩ _ ⟨⟩
          obtain ⟨fs, shape, mapped⟩ := walked_list truthy read
          refine .inr ⟨fs, shape, fun f member => ?_⟩
          obtain ⟨finding, inside, same⟩ := (mapM_members mapped).1 f member
          exact ⟨finding, same, each finding inside⟩
      · rw [if_neg truthy]
        rw [Bool.not_eq_true] at truthy
        constructor
        · intro _
          exact ⟨[], rfl, by simp⟩
        · rintro - _ ⟨⟩
          exact .inl truthy

theorem evaluate_exit {w : World} {entries : List Entry} :
    (evaluate w entries).exit = 0 ↔ (∀ i ∈ w.scans, Settled entries i) ∧
      (∀ per, w.scans.mapM findingsIn = .ok per →
        (lines w.mode entries per.flatten).all w.writes = true) ∧ w.report ≠ some false := by
  have whole : (∀ i ∈ w.scans, Settled entries i) ↔ ∃ per, w.scans.mapM findingsIn = .ok per ∧
      per.flatten.all (covered entries) = true := by
    simp only [settled_iff, List.all_eq_true, List.mem_flatten]
    constructor
    · intro each
      obtain ⟨per, mapped⟩ := Fold.mapM_ends.mpr (fun i member =>
        (each i member).imp (fun _ found => found.1))
      refine ⟨per, mapped, ?_⟩
      rintro f ⟨findings, inside, member⟩
      obtain ⟨i, from_, same⟩ := (mapM_members mapped).2 findings inside
      obtain ⟨findings', read, good⟩ := each i from_
      rw [same, Except.ok.injEq] at read
      rw [read] at member
      exact good f member
    · rintro ⟨per, mapped, each⟩ i member
      obtain ⟨findings, inside, same⟩ := (mapM_members mapped).1 i member
      exact ⟨findings, same, fun f here => each f ⟨findings, inside, here⟩⟩
  rw [whole]
  unfold evaluate
  cases w.scans.mapM findingsIn with
  | error e => simp
  | ok per =>
      dsimp only
      by_cases printable : (lines w.mode entries per.flatten).all w.writes = true
      · rw [if_neg (by simp [printable])]
        by_cases unwritable : w.report = some false
        · rw [if_pos unwritable]
          simp [unwritable]
        · rw [if_neg unwritable]
          by_cases good : per.flatten.all (covered entries) = true
          · rw [if_pos good]
            simp only [true_iff]
            refine ⟨⟨per, rfl, good⟩, ?_, unwritable⟩
            rintro _ ⟨⟩
            exact printable
          · rw [if_neg good]
            constructor
            · intro impossible
              cases impossible
            · rintro ⟨⟨_, ⟨⟩, all⟩, -⟩
              exact absurd all good
      · rw [if_pos (by simpa using printable)]
        constructor
        · intro impossible
          cases impossible
        · rintro ⟨-, each, -⟩
          exact absurd (each per rfl) printable

/-- When the gate answers 0. -/
theorem secretScan_exit (w : World) :
    (secretScan w).exit = 0 ↔ ∃ entries, Passing w entries := by
  unfold secretScan
  by_cases tools : w.missing = []
  · rw [if_neg (not_not.mpr tools)]
    cases read : readAllowlist w.allowlist with
    | error e =>
        constructor
        · intro impossible
          cases impossible
        · rintro ⟨entries, passing⟩
          rw [passing.allowlist] at read
          cases read
    | ok entries =>
        dsimp only
        cases found : (w.scans.map Invocation.rc).find? (fun rc => decide (1 < rc)) with
        | some rc =>
            constructor
            · intro impossible
              cases impossible
            · rintro ⟨entries', passing⟩
              obtain ⟨i, member, rfl⟩ := List.mem_map.mp (List.mem_of_find?_eq_some found)
              have bound := passing.codes i member
              have stops := List.find?_some found
              rw [decide_eq_true_eq] at stops
              omega
        | none =>
            have codes : ∀ i ∈ w.scans, i.rc ≤ 1 := by
              intro i member
              have here := List.find?_eq_none.mp found i.rc (List.mem_map_of_mem member)
              rw [decide_eq_true_eq] at here
              omega
            dsimp only
            by_cases silent : w.scans.any Invocation.unreported = true
            · rw [if_pos silent]
              constructor
              · intro impossible
                cases impossible
              · rintro ⟨entries', passing⟩
                obtain ⟨i, member, here⟩ := List.any_eq_true.mp silent
                rw [unreported_iff.mpr (passing.reported i member)] at here
                cases here
            · rw [if_neg silent, evaluate_exit]
              have reported : ∀ i ∈ w.scans, i.rc = 1 → ∃ bytes, i.report = some bytes ∧
                  bytes ≠ [] := by
                intro i member
                apply unreported_iff.mp
                rw [Bool.eq_false_iff]
                exact fun here => silent (List.any_eq_true.mpr ⟨i, member, here⟩)
              constructor
              · rintro ⟨settled, printed, written⟩
                exact ⟨entries, tools, read, codes, reported, settled, printed, written⟩
              · rintro ⟨entries', passing⟩
                have same := passing.allowlist
                rw [read, Except.ok.injEq] at same
                subst same
                exact ⟨passing.settled, passing.printed, passing.written⟩
  · rw [if_pos tools]
    constructor
    · intro impossible
      cases impossible
    · rintro ⟨entries, passing⟩
      exact absurd passing.tools tools

/-- A scan that found something, whose report reads as no findings at all. -/
def Swallowed (i : Invocation) : Prop :=
  i.rc = 1 ∧ ∃ bytes, i.report = some bytes ∧ Blank bytes

theorem loaded_of_truthy {bytes : Bytes} (filled : ¬Blank bytes) :
    Json.loadText bytes = .ok (loaded bytes) := by
  unfold Blank at filled
  unfold loaded at filled ⊢
  cases read : Json.loadText bytes with
  | ok v => rfl
  | error e =>
      rw [read] at filled
      exact absurd rfl filled

theorem Settled.answered {entries : List Entry} {i : Invocation} (settled : Settled entries i)
    (code : i.rc ≤ 1) (reported : i.rc = 1 → ∃ bytes, i.report = some bytes ∧ bytes ≠ []) :
    Answered i ↔ ¬Swallowed i := by
  unfold Answered Swallowed
  by_cases found : i.rc = 1
  · obtain ⟨bytes, report, -⟩ := reported found
    constructor
    · rintro (clean | ⟨-, bytes', fs, report', read, filled⟩) ⟨-, bytes'', report'', blank⟩
      · omega
      · rw [report'] at report''
        cases report''
        unfold Blank loaded at blank
        rw [read] at blank
        cases fs with
        | nil => exact filled rfl
        | cons f rest => cases blank
    · intro heard
      have filled : ¬Blank bytes := fun blank => heard ⟨found, bytes, report, blank⟩
      rcases settled bytes report with blank | ⟨fs, shape, -⟩
      · exact absurd blank filled
      · refine .inr ⟨found, bytes, fs, report, ?_, ?_⟩
        · rw [loaded_of_truthy filled, shape]
        · rintro rfl
          apply filled
          unfold Blank
          rw [shape]
          rfl
  · have clean : i.rc = 0 := by omega
    exact ⟨fun _ here => found here.1, fun _ => .inl clean⟩

theorem Settled.allCovered {entries : List Entry} {i : Invocation} (settled : Settled entries i) :
    AllCovered entries i := by
  intro bytes fs report read f member
  have same : loaded bytes = .list fs := by
    unfold loaded
    rw [read]
  rcases settled bytes report with blank | ⟨fs', shape, each⟩
  · unfold Blank at blank
    rw [same] at blank
    cases fs with
    | nil => cases member
    | cons f' rest => cases blank
  · rw [same] at shape
    cases shape
    obtain ⟨finding, reads, good⟩ := each f member
    unfold covered at good
    obtain ⟨e, inside, agrees⟩ := List.any_eq_true.mp good
    exact ⟨finding, reads, e, inside, of_decide_eq_true agrees⟩

/-- The scanner found something, and its report was cut after the first byte. -/
def truncated : World where
  missing := []
  allowlist := none
  scope := .tree
  baseResolves := true
  scanner := fun _ => ⟨1, some [91]⟩
  report := none
  writes := fun _ => true

end DevGate.Gate.SecretScan
