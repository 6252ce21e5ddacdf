import Mathlib.Data.Finset.Card
import DevGate.Gate.SpecTraceability
import DevGate.Py.Order

set_option autoImplicit false

/- scripts/spec_traceability.py: the requirements of the spec files, and what
`main` reports of them. -/
namespace DevGate.Gate.Traceability

open Py Evaluators

/-- `REQ_ID`. -/
def reqId : Re :=
  .seq (.word "<!--".toList) <| .seq (.star true .space) <| .seq (.word "id:".toList) <|
  .seq (.star true .space) <| .seq (.group idRe) <| .seq (.star true .space) (.word "-->".toList)

/-- A path below the root; reading its text may raise. -/
structure SpecFile where
  parts : List Str
  text : Except Exc Str

/-- `PurePath.stem` of a final component. -/
def stem (name : Str) : Str := name.take (name.length - (suffix name).length)

def SpecFile.name (spec : SpecFile) : Str := spec.parts.getLastD []

def SpecFile.capability (spec : SpecFile) : Str :=
  if spec.name = "spec.md" then spec.parts.dropLast.getLastD [] else stem spec.name

/-- The order of paths, by their parts. -/
def partsLe : List Str → List Str → Bool
  | [], _ => true
  | _ :: _, [] => false
  | s :: ss, t :: ts => if s = t then partsLe ss ts else Str.le s t

def sortedFiles (specs : List SpecFile) : List SpecFile :=
  specs.insertionSort (fun a b => partsLe a.parts b.parts = true)

/-- `openspec/specs/*/spec.md`. -/
def SpecFile.published (spec : SpecFile) : Bool :=
  spec.parts.length = 4 ∧ spec.parts.take 2 = ["openspec", "specs"] ∧ spec.name = "spec.md"

/-- `openspec/changes/*/specs/**/*.md`. -/
def SpecFile.changing (spec : SpecFile) : Bool :=
  5 ≤ spec.parts.length ∧ spec.parts.take 2 = ["openspec", "changes"] ∧
    spec.parts[3]? = some ("specs" : Str) ∧ (".md" : Str) <:+ spec.name

/-- `find_spec_files`. -/
def findSpecFiles (tree : List SpecFile) : List SpecFile :=
  sortedFiles (tree.filter SpecFile.published) ++
    (sortedFiles (tree.filter SpecFile.changing)).filter (fun spec => ("archive" : Str) ∉ spec.parts.drop 2)

/-- capability → {req_id: spec_path}. -/
abbrev Requirements := Dict Str (Dict Str (List Str))

/-- The body of the loop of `collect_requirements`. -/
def addSpec (out : Requirements) (spec : SpecFile) : Except Exc Requirements := do
  let ids := reqId.findall (← spec.text)
  let known := (Dict.get? out spec.capability).getD []
  return Dict.set out spec.capability (ids.foldl (fun reqs rid => Dict.set reqs rid spec.parts) known)

/-- `collect_requirements`. -/
def collectRequirements (specs : List SpecFile) : Except Exc Requirements :=
  specs.foldlM addSpec []

structure Args where
  report : Bool
  ratchet : Bool
  updateRatchet : Bool

/-- What a run reads below its root; nothing for a file that does not exist. -/
structure Tree where
  root : Str
  specs : List SpecFile
  sources : List SourceFile
  config : Option (Except Exc Str)
  floor : Option (Except Exc Str)

/-- `load_config`. -/
def loadConfig (tree : Tree) : Except Exc Value :=
  match tree.config with
  | none => .ok (.dict [("default_mode", .str "advisory"), ("specs", .dict [])])
  | some read => do Json.loads (← read)

/-- One requirement as the loop over the capabilities judges it. -/
structure Row where
  rid : Str
  covered : Bool
  mode : Value

/-- `per_spec.get(capability, default_mode)`. -/
def modeOf (perSpec defaultMode : Value) (capability : Str) : Except Exc Value := do
  return (← perSpec.get capability).getD defaultMode

def judged (markers : List Str) (perSpec defaultMode : Value) :
    Requirements → Except Exc (List Row)
  | [] => .ok []
  | (capability, reqs) :: rest => do
      let mode ← modeOf perSpec defaultMode capability
      let later ← judged markers perSpec defaultMode rest
      return reqs.map (fun rv => ⟨rv.1, rv.1 ∈ markers, mode⟩) ++ later

def Row.detail (row : Row) : Text :=
  [row.rid, ": ", if row.covered then "covered" else "UNCOVERED", " (mode=", .str row.mode, ")"]

def Row.blocks (row : Row) : Bool := !row.covered && row.mode.eq (.str "blocking")

/-- The counts of a run. -/
structure Tally where
  total : Nat
  covered : Nat
  uncovered : Int
  blocking : List Str
  deriving DecidableEq

def totalIds (requirements : Requirements) : Nat := (requirements.map (fun kv => kv.2.length)).sum

/-- `len(markers & {every id})`. -/
def coveredCount (markers : List Str) (requirements : Requirements) : Nat :=
  ((requirements.flatMap (fun kv => kv.2.map Prod.fst)).dedup.filter (fun rid => rid ∈ markers)).length

def tallied (markers : List Str) (requirements : Requirements) (rows : List Row) : Tally where
  total := totalIds requirements
  covered := coveredCount markers requirements
  uncovered := (totalIds requirements : Int) - coveredCount markers requirements
  blocking := (rows.filter Row.blocks).map Row.rid

/-- A run that returns: its exit code, what it prints, the floor it writes, and its counts
where it comes to count. -/
structure Run where
  code : Nat
  printed : List Text
  written : Option Nat
  tally : Option Tally

def Tally.coverage (t : Tally) : Text :=
  ["spec-traceability: ", .str (.int t.covered), "/", .str (.int t.total), " requirements covered"]

def Tally.failures (t : Tally) : Text :=
  ["spec-traceability: BLOCKING failures: ", .lit (Str.join ", " t.blocking)]

def Tally.advisory (t : Tally) : Text :=
  ["spec-traceability: advisory — ", .str (.int t.uncovered), " uncovered requirement(s)"]

/-- The part of `main` behind `--ratchet`. -/
def ratchet (args : Args) (tree : Tree) (t : Tally) (printed : List Text) : Except Exc Run :=
  let path : Str := tree.root ++ "/.guardrails/traceability-ratchet.json"
  let saying (line : Text) : List Text := printed ++ [line]
  let recorded : Except Exc Value := match tree.floor with
    | none => .ok (.dict [])
    | some read => do Json.loads (← read)
  match recorded with
  | .error e =>
      if e.isA [.osError, .jsonDecodeError] then
        .ok ⟨2, saying ("spec-traceability: cannot read ratchet floor " :: path :: ": " :: e.msg),
          none, some t⟩
      else .error e
  | .ok recorded => do
      match ← recorded.get "min_covered" with
      | none | some .null =>
          return ⟨0, saying ["spec-traceability: ratchet floor initialized at ",
            .str (.int t.covered), " (", path, ")"], some t.covered, some t⟩
      | some floor =>
          if ← (Value.int t.covered).lt floor then
            return ⟨1, saying ["spec-traceability: RATCHET REGRESSION — ", .str (.int t.covered),
              " covered is below the floor of ", .str floor,
              ". Markers were removed or specs outgrew the implementation."], none, some t⟩
          else if ← floor.lt (.int t.covered) then
            if args.updateRatchet then
              return ⟨0, saying ["spec-traceability: ratchet floor raised to ",
                .str (.int t.covered)], some t.covered, some t⟩
            else
              return ⟨0, saying ["spec-traceability: coverage grew above the floor (", .str floor,
                ") — raise it with --update-ratchet"], none, some t⟩
          else return ⟨0, printed, none, some t⟩

/-- What `main` prints where no requirement id is found. -/
def nothingFound (specs : List SpecFile) : Text :=
  if specs ≠ [] then
    ["spec-traceability: found ", .str (.int specs.length), " spec file(s) under ",
      "openspec/specs/ and openspec/changes/*/specs/ but 0 requirement IDs ",
      "in the supported <!-- id: name --> format. Add id markers to the ",
      "requirements this gate should track, or it stays a config error (exit 2)."]
  else ["spec-traceability: no spec files found under openspec/specs/ or ",
    "openspec/changes/*/specs/ (searched both OpenSpec layouts)"]

/-- `main` once the configuration and the requirements are read. -/
def report (args : Args) (tree : Tree) (config : Value) (requirements : Requirements) :
    Except Exc Run :=
  if totalIds requirements = 0 then
    .ok ⟨2, [nothingFound (findSpecFiles tree.specs)], none, none⟩
  else do
    let markers := collectMarkers tree.sources
    let defaultMode := (← config.get "default_mode").getD (.str "advisory")
    let perSpec := (← config.get "specs").getD (.dict [])
    let rows ← judged markers perSpec defaultMode requirements
    let t := tallied markers requirements rows
    let printed := (if args.report then rows.map Row.detail else []) ++ [t.coverage]
    if t.blocking ≠ [] then return ⟨1, printed ++ [t.failures], none, some t⟩
    else
      let printed := printed ++ if t.uncovered ≠ 0 then [t.advisory] else []
      if args.ratchet then ratchet args tree t printed else return ⟨0, printed, none, some t⟩

/-- `main`. -/
def main (args : Args) (tree : Tree) : Except Exc Run :=
  let read : Except Exc (Value × Requirements) := do
    let config ← loadConfig tree
    return (config, ← collectRequirements (findSpecFiles tree.specs))
  match read with
  | .error e =>
      if e.isA [.jsonDecodeError, .osError] then
        .ok ⟨2, ["spec-traceability: config/parse error: " :: e.msg], none, none⟩
      else .error e
  | .ok found => report args tree found.1 found.2

/-! What a run should report. -/

/-- The ids of a file that is read. -/
def SpecFile.ids (spec : SpecFile) : List Str :=
  match spec.text with
  | .ok text => reqId.findall text
  | .error _ => []

/-- The requirements of a tree: each id once for every capability whose files define it. -/
def required (tree : Tree) : Finset (Str × Str) :=
  ((findSpecFiles tree.specs).flatMap (fun spec => spec.ids.map (fun rid => (spec.capability, rid)))).toFinset

def marked (tree : Tree) : List Str := collectMarkers tree.sources

/-- A capability in blocking mode. -/
def Blocking (tree : Tree) (capability : Str) : Prop :=
  ∃ config, loadConfig tree = .ok config ∧ ∃ defaultMode perSpec mode,
    config.get "default_mode" = .ok defaultMode ∧ config.get "specs" = .ok perSpec ∧
    modeOf (perSpec.getD (.dict [])) (defaultMode.getD (.str "advisory")) capability = .ok mode ∧
    mode.eq (.str "blocking") = true

/-- The counts of a run count the requirements. -/
structure Consistent (tree : Tree) (run : Run) (t : Tally) : Prop where
  covered : t.covered = ((required tree).filter (fun p => p.2 ∈ marked tree)).card
  uncovered : t.uncovered = ((required tree).filter (fun p => p.2 ∉ marked tree)).card
  whole : (t.covered : Int) + t.uncovered = t.total
  full : (∀ p ∈ required tree, p.2 ∈ marked tree) → t.covered = t.total
  blocks : (run.code = 1 ∧ t.failures ∈ run.printed ∧ t.blocking ≠ []) ↔
    ∃ p ∈ required tree, p.2 ∉ marked tree ∧ Blocking tree p.1

/-- No id with a marker is defined by two capabilities. -/
def Apart (tree : Tree) : Prop :=
  ∀ rid ∈ marked tree, ∀ a b, (a, rid) ∈ required tree → (b, rid) ∈ required tree → a = b

/-! The requirements that are collected. -/

def flat (requirements : Requirements) : List (Str × Str) :=
  requirements.flatMap (fun kv => kv.2.map (fun rv => (kv.1, rv.1)))

/-- Every capability, and every id of one, stands once. -/
structure Distinct (requirements : Requirements) : Prop where
  capabilities : (requirements.map Prod.fst).Nodup
  ids : ∀ kv ∈ requirements, (kv.2.map Prod.fst).Nodup

theorem mem_flat {requirements : Requirements} (distinct : Distinct requirements) {p : Str × Str} :
    p ∈ flat requirements ↔ ∃ reqs, Dict.get? requirements p.1 = some reqs ∧ p.2 ∈ reqs.map Prod.fst := by
  obtain ⟨capability, rid⟩ := p
  unfold flat
  rw [List.mem_flatMap]
  constructor
  · rintro ⟨⟨cap, reqs⟩, member, inside⟩
    obtain ⟨rv, listed, same⟩ := List.mem_map.mp inside
    cases same
    exact ⟨reqs, Dict.get?_of_mem distinct.capabilities member, List.mem_map.mpr ⟨rv, listed, rfl⟩⟩
  · rintro ⟨reqs, found, inside⟩
    obtain ⟨rv, listed, same⟩ := List.mem_map.mp inside
    exact ⟨(capability, reqs), Dict.mem_of_get? found, List.mem_map.mpr ⟨rv, listed, by rw [same]⟩⟩

theorem flat_nodup {requirements : Requirements} (distinct : Distinct requirements) :
    (flat requirements).Nodup := by
  unfold flat
  rw [List.nodup_flatMap]
  constructor
  · intro kv member
    have inner := distinct.ids kv member
    refine List.Nodup.of_map Prod.snd ?_
    rw [List.map_map]
    exact inner
  · refine (List.pairwise_map.mp distinct.capabilities).imp ?_
    intro a b apart
    rw [Function.onFun, List.disjoint_left]
    intro p left right
    obtain ⟨_, -, rfl⟩ := List.mem_map.mp left
    obtain ⟨_, -, same⟩ := List.mem_map.mp right
    exact apart (congrArg Prod.fst same).symm

theorem foldl_ids (path : List Str) (ids : List Str) (known : Dict Str (List Str)) :
    (∀ rid, rid ∈ (ids.foldl (fun reqs rid => Dict.set reqs rid path) known).map Prod.fst ↔
      rid ∈ known.map Prod.fst ∨ rid ∈ ids) ∧
    ((known.map Prod.fst).Nodup →
      ((ids.foldl (fun reqs rid => Dict.set reqs rid path) known).map Prod.fst).Nodup) := by
  induction ids generalizing known with
  | nil => simp
  | cons first rest ih =>
      obtain ⟨members, nodup⟩ := ih (Dict.set known first path)
      refine ⟨fun rid => ?_, fun distinct => nodup (Dict.nodup_set distinct first path)⟩
      have placed : rid ∈ (Dict.set known first path).map Prod.fst ↔
          rid ∈ known.map Prod.fst ∨ rid = first := by
        rw [← Dict.get?_isSome_iff, ← Dict.get?_isSome_iff, Dict.get?_set]
        by_cases here : first = rid
        · simp [here]
        · simp [here, Ne.symm here]
      rw [List.foldl_cons, members, placed, List.mem_cons, or_assoc]

/-- One file adds its ids to its capability. -/
theorem addSpec_flat {out out' : Requirements} {spec : SpecFile} (ran : addSpec out spec = .ok out')
    (distinct : Distinct out) : Distinct out' ∧ ∀ p, p ∈ flat out' ↔
      p ∈ flat out ∨ p.1 = spec.capability ∧ p.2 ∈ spec.ids := by
  obtain ⟨text, read, ran⟩ := bind_ok.mp ran
  cases ran
  have ids : spec.ids = reqId.findall text := by
    unfold SpecFile.ids
    rw [read]
  obtain ⟨members, nodup⟩ := foldl_ids spec.parts (reqId.findall text)
    ((Dict.get? out spec.capability).getD [])
  have known : (((Dict.get? out spec.capability).getD []).map Prod.fst).Nodup := by
    cases found : Dict.get? out spec.capability with
    | none => exact List.nodup_nil
    | some reqs => exact distinct.ids _ (Dict.mem_of_get? found)
  have distinct' : Distinct (Dict.set out spec.capability
      ((reqId.findall text).foldl (fun reqs rid => Dict.set reqs rid spec.parts)
        ((Dict.get? out spec.capability).getD []))) := by
    refine ⟨Dict.nodup_set distinct.capabilities _ _, fun kv member => ?_⟩
    rcases Dict.mem_set member with rfl | old
    · exact nodup known
    · exact distinct.ids kv old
  refine ⟨distinct', fun p => ?_⟩
  rw [mem_flat distinct', mem_flat distinct, Dict.get?_set, ids]
  by_cases here : spec.capability = p.1
  · rw [if_pos here]
    simp only [Option.some.injEq, exists_eq_left']
    rw [members, here]
    cases Dict.get? out p.1 <;> simp
  · rw [if_neg here]
    simp [Ne.symm here]

theorem collectRequirements_flat {specs : List SpecFile} {requirements : Requirements}
    (ran : collectRequirements specs = .ok requirements) :
    Distinct requirements ∧ ∀ p, p ∈ flat requirements ↔
      p ∈ specs.flatMap (fun spec => spec.ids.map (fun rid => (spec.capability, rid))) := by
  unfold collectRequirements at ran
  induction specs using List.reverseRecOn generalizing requirements with
  | nil =>
      cases ran
      exact ⟨⟨List.nodup_nil, nofun⟩, fun p => Iff.rfl⟩
  | append_singleton front spec ih =>
      rw [List.foldlM_append] at ran
      obtain ⟨before, ran, step⟩ := bind_ok.mp ran
      rw [List.foldlM_cons] at step
      obtain ⟨after, step, rest⟩ := bind_ok.mp step
      cases rest
      obtain ⟨distinct, members⟩ := ih ran
      obtain ⟨distinct', members'⟩ := addSpec_flat step distinct
      refine ⟨distinct', fun p => ?_⟩
      rw [members', members, List.flatMap_append, List.mem_append]
      obtain ⟨capability, rid⟩ := p
      simp [eq_comm, and_comm]

/-! The counts. -/

theorem totalIds_eq (requirements : Requirements) : totalIds requirements = (flat requirements).length := by
  unfold totalIds flat
  rw [List.length_flatMap]
  simp only [List.length_map]

theorem coveredCount_eq (markers : List Str) (requirements : Requirements) :
    coveredCount markers requirements =
      (((flat requirements).map Prod.snd).dedup.filter (fun rid => rid ∈ markers)).length := by
  unfold coveredCount flat
  rw [List.map_flatMap]
  simp only [List.map_map]
  rfl

theorem length_dedup_iff {α : Type} [DecidableEq α] (l : List α) :
    l.dedup.length = l.length ↔ l.Nodup := by
  constructor
  · intro same
    have whole := (List.dedup_sublist l).eq_of_length same
    rw [← whole]
    exact List.nodup_dedup l
  · intro distinct
    rw [distinct.dedup]

theorem filter_dedup {α : Type} [DecidableEq α] (keep : α → Bool) (l : List α) :
    l.dedup.filter keep = (l.filter keep).dedup := by
  induction l with
  | nil => rfl
  | cons x rest ih =>
      by_cases kept : keep x = true
      · by_cases old : x ∈ rest
        · have old' : x ∈ rest.filter keep := List.mem_filter.mpr ⟨old, kept⟩
          rw [List.dedup_cons_of_mem old, List.filter_cons_of_pos kept, List.dedup_cons_of_mem old', ih]
        · have new' : x ∉ rest.filter keep := fun inside => old (List.mem_filter.mp inside).1
          rw [List.dedup_cons_of_notMem old, List.filter_cons_of_pos kept, List.filter_cons_of_pos kept,
            List.dedup_cons_of_notMem new', ih]
      · rw [List.filter_cons_of_neg kept, ← ih]
        by_cases old : x ∈ rest
        · rw [List.dedup_cons_of_mem old]
        · rw [List.dedup_cons_of_notMem old, List.filter_cons_of_neg kept]

/-- An id is counted as covered once, so the pairs are counted where each is apart. -/
theorem coveredCount_le (markers : List Str) (requirements : Requirements) :
    coveredCount markers requirements ≤ ((flat requirements).filter (fun p => p.2 ∈ markers)).length := by
  rw [coveredCount_eq, filter_dedup, List.filter_map]
  refine (List.dedup_sublist _).length_le.trans ?_
  rw [List.length_map]
  exact le_of_eq rfl

theorem coveredCount_iff {markers : List Str} {requirements : Requirements}
    (distinct : Distinct requirements) :
    coveredCount markers requirements = ((flat requirements).filter (fun p => p.2 ∈ markers)).length ↔
      ∀ rid ∈ markers, ∀ a b, (a, rid) ∈ flat requirements → (b, rid) ∈ flat requirements → a = b := by
  have counted : coveredCount markers requirements =
      (((flat requirements).filter (fun p => p.2 ∈ markers)).map Prod.snd).dedup.length := by
    rw [coveredCount_eq, filter_dedup, List.filter_map]
    rfl
  have length : (((flat requirements).filter (fun p => p.2 ∈ markers)).map Prod.snd).length =
      ((flat requirements).filter (fun p => p.2 ∈ markers)).length := List.length_map _
  rw [counted, ← length, length_dedup_iff,
    List.nodup_map_iff_inj_on ((flat_nodup distinct).filter _)]
  constructor
  · intro apart rid named a b left right
    have same := apart (a, rid) (List.mem_filter.mpr ⟨left, decide_eq_true named⟩) (b, rid)
      (List.mem_filter.mpr ⟨right, decide_eq_true named⟩) rfl
    exact congrArg Prod.fst same
  · rintro apart ⟨a, rid⟩ left ⟨b, rid'⟩ right same
    obtain ⟨left, named⟩ := List.mem_filter.mp left
    obtain ⟨right, -⟩ := List.mem_filter.mp right
    dsimp only at same
    subst same
    rw [apart rid (of_decide_eq_true named) a b left right]

theorem judged_rows {markers : List Str} {perSpec defaultMode : Value} {requirements : Requirements} :
    ∀ {rows : List Row}, judged markers perSpec defaultMode requirements = .ok rows →
      ∀ row, row ∈ rows ↔ ∃ capability, (capability, row.rid) ∈ flat requirements ∧
        row.covered = decide (row.rid ∈ markers) ∧
        modeOf perSpec defaultMode capability = .ok row.mode := by
  induction requirements with
  | nil =>
      intro rows ran row
      cases ran
      simp [flat]
  | cons kv rest ih =>
      intro rows ran row
      obtain ⟨capability, reqs⟩ := kv
      obtain ⟨mode, looked, rest_ran⟩ := bind_ok.mp ran
      obtain ⟨later, below, same⟩ := bind_ok.mp rest_ran
      cases same
      have parts : flat ((capability, reqs) :: rest) =
          reqs.map (fun rv => (capability, rv.1)) ++ flat rest := List.flatMap_cons
      rw [List.mem_append, ih below row, parts]
      constructor
      · rintro (here | ⟨capability', inside, rest⟩)
        · obtain ⟨rv, listed, rfl⟩ := List.mem_map.mp here
          exact ⟨capability, List.mem_append_left _ (List.mem_map.mpr ⟨rv, listed, rfl⟩), rfl, looked⟩
        · exact ⟨capability', List.mem_append_right _ inside, rest⟩
      · rintro ⟨capability', inside, covered, looked'⟩
        rcases List.mem_append.mp inside with here | later
        · obtain ⟨rv, listed, same⟩ := List.mem_map.mp here
          obtain ⟨rid, covered₀, mode₀⟩ := row
          cases same
          rw [looked, Except.ok.injEq] at looked'
          dsimp only at covered looked'
          refine Or.inl (List.mem_map.mpr ⟨rv, listed, ?_⟩)
          rw [covered, looked']
        · exact Or.inr ⟨capability', later, covered, looked'⟩

theorem blocking_iff {markers : List Str} {requirements : Requirements} {rows : List Row} :
    (tallied markers requirements rows).blocking ≠ [] ↔ ∃ row ∈ rows, row.blocks = true := by
  unfold tallied
  rw [Ne, List.map_eq_nil_iff, List.filter_eq_nil_iff]
  simp only [not_forall, not_not, exists_prop]

/-! A run. -/

theorem ratchet_tally {args : Args} {tree : Tree} {t : Tally} {printed : List Text} {run : Run}
    (ran : ratchet args tree t printed = .ok run) : run.tally = some t := by
  unfold ratchet at ran
  dsimp only at ran
  split at ran
  · split at ran
    · cases ran
      rfl
    · cases ran
  · obtain ⟨floor, -, ran⟩ := bind_ok.mp ran
    split at ran
    · cases ran
      rfl
    · cases ran
      rfl
    · obtain ⟨below, -, ran⟩ := bind_ok.mp ran
      split at ran
      · cases ran
        rfl
      · obtain ⟨above, -, ran⟩ := bind_ok.mp ran
        split at ran
        · split at ran
          · cases ran
            rfl
          · cases ran
            rfl
        · cases ran
          rfl

/-- A run that counts: what it has read, the counts, and that it blocks where a row does. -/
theorem report_told {args : Args} {tree : Tree} {config : Value} {requirements : Requirements}
    {run : Run} {t : Tally} (ran : report args tree config requirements = .ok run)
    (told : run.tally = some t) :
    ∃ defaultMode perSpec rows, config.get "default_mode" = .ok defaultMode ∧
      config.get "specs" = .ok perSpec ∧
      judged (marked tree) (perSpec.getD (.dict [])) (defaultMode.getD (.str "advisory"))
        requirements = .ok rows ∧
      t = tallied (marked tree) requirements rows ∧
      ((run.code = 1 ∧ t.failures ∈ run.printed ∧ t.blocking ≠ []) ↔ t.blocking ≠ []) := by
  unfold report at ran
  split at ran
  · cases ran
    cases told
  · obtain ⟨defaultMode, first, ran⟩ := bind_ok.mp ran
    obtain ⟨perSpec, second, ran⟩ := bind_ok.mp ran
    obtain ⟨rows, judges, ran⟩ := bind_ok.mp ran
    refine ⟨defaultMode, perSpec, rows, first, second, judges, ?_⟩
    dsimp only at ran
    split at ran
    · rename_i blocking
      cases ran
      cases told
      refine ⟨rfl, iff_of_true ⟨rfl, ?_, blocking⟩ blocking⟩
      exact List.mem_append_right _ List.mem_cons_self
    · rename_i quiet
      rw [not_not] at quiet
      have same : run.tally = some (tallied (marked tree) requirements rows) := by
        split at ran
        · exact ratchet_tally ran
        · cases ran
          rfl
      rw [told, Option.some.injEq] at same
      subst same
      exact ⟨rfl, iff_of_false (fun run => run.2.2 quiet) (fun blocking => blocking quiet)⟩

theorem main_told {args : Args} {tree : Tree} {run : Run} {t : Tally} (ran : main args tree = .ok run)
    (told : run.tally = some t) :
    ∃ config requirements, loadConfig tree = .ok config ∧
      collectRequirements (findSpecFiles tree.specs) = .ok requirements ∧
      report args tree config requirements = .ok run := by
  unfold main at ran
  dsimp only at ran
  split at ran
  · split at ran
    · cases ran
      cases told
    · cases ran
  · rename_i found read
    obtain ⟨config, loaded, read⟩ := bind_ok.mp read
    obtain ⟨requirements, collected, same⟩ := bind_ok.mp read
    cases same
    exact ⟨config, requirements, loaded, collected, ran⟩

/-- The counts of every run that counts are those of the requirements exactly where no marked
id belongs to two capabilities. -/
theorem totals_consistent_iff (args : Args) (tree : Tree) (run : Run) (t : Tally)
    (ran : main args tree = .ok run) (told : run.tally = some t) :
    Consistent tree run t ↔ Apart tree := by
  obtain ⟨config, requirements, loaded, collected, ran⟩ := main_told ran told
  obtain ⟨defaultMode, perSpec, rows, first, second, judges, rfl, blocks⟩ := report_told ran told
  obtain ⟨distinct, members⟩ := collectRequirements_flat collected
  have nodup := flat_nodup distinct
  have whole : required tree = (flat requirements).toFinset := by
    ext p
    unfold required
    rw [List.mem_toFinset, List.mem_toFinset, members]
  have counts : ∀ keep : Str × Str → Prop, [DecidablePred keep] →
      ((required tree).filter keep).card = ((flat requirements).filter keep).length := by
    intro keep _
    have same : (flat requirements).toFinset.filter keep =
        ((flat requirements).filter keep).toFinset := by
      ext p
      simp only [Finset.mem_filter, List.mem_toFinset, List.mem_filter, decide_eq_true_eq]
    rw [whole, same, List.toFinset_card_of_nodup (nodup.filter _)]
  have split_ : ((flat requirements).filter (fun p => p.2 ∈ marked tree)).length +
      ((flat requirements).filter (fun p => p.2 ∉ marked tree)).length = totalIds requirements := by
    have parts := List.length_eq_length_filter_add (l := flat requirements)
      (fun p => decide (p.2 ∈ marked tree))
    rw [totalIds_eq, parts]
    simp only [decide_not]
  have apart : coveredCount (marked tree) requirements =
      ((flat requirements).filter (fun p => p.2 ∈ marked tree)).length ↔ Apart tree := by
    unfold Apart
    simp only [coveredCount_iff distinct, whole, List.mem_toFinset]
  have least := coveredCount_le (marked tree) requirements
  constructor
  · intro consistent
    have covered := consistent.covered
    rw [counts] at covered
    exact apart.mp covered
  · intro each
    have covered := apart.mpr each
    constructor
    case covered => rw [counts]; exact covered
    case uncovered =>
      rw [counts]
      dsimp only [tallied]
      omega
    case whole =>
      dsimp only [tallied]
      omega
    case full =>
      intro all
      have none : (flat requirements).filter (fun p => p.2 ∉ marked tree) = [] := by
        apply List.filter_eq_nil_iff.mpr
        intro p member bare
        have inside : p ∈ required tree := by rw [whole, List.mem_toFinset]; exact member
        exact of_decide_eq_true bare (all p inside)
      rw [none, List.length_nil] at split_
      dsimp only [tallied]
      omega
    case blocks =>
      have rowed := judged_rows judges
      rw [blocks, blocking_iff]
      constructor
      · rintro ⟨row, member, blocked⟩
        obtain ⟨capability, inside, covered, looked⟩ := (rowed row).mp member
        unfold Row.blocks at blocked
        rw [Bool.and_eq_true, Bool.not_eq_true', covered, decide_eq_false_iff_not] at blocked
        refine ⟨(capability, row.rid), ?_, blocked.1, config, loaded, defaultMode, perSpec, row.mode,
          first, second, looked, blocked.2⟩
        rw [whole, List.mem_toFinset]
        exact inside
      · rintro ⟨⟨capability, rid⟩, inside, bare, config', loaded', default', per', mode, first',
          second', looked, blocking⟩
        rw [loaded, Except.ok.injEq] at loaded'
        subst loaded'
        rw [first, Except.ok.injEq] at first'
        rw [second, Except.ok.injEq] at second'
        subst first' second'
        rw [whole, List.mem_toFinset] at inside
        refine ⟨⟨rid, false, mode⟩, (rowed _).mpr ⟨capability, inside, ?_, looked⟩, ?_⟩
        · exact (decide_eq_false bare).symm
        · unfold Row.blocks
          rw [blocking]
          rfl

/-- A spec file of this capability with one requirement, and a source file that marks it. -/
def specOf (capability rid : Str) : SpecFile :=
  ⟨["openspec", "specs", capability, "spec.md"], .ok ("<!-- id: " ++ rid ++ " -->")⟩

def markerOf (rid : Str) : SourceFile := ⟨["lib.rs"], true, some (Utf8.ascii ("// spec: " ++ rid))⟩

/-- Two capabilities, one requirement each, and a marker. -/
def pair (first second : Str) : Tree where
  root := "/project"
  specs := [specOf "router" first, specOf "store" second]
  sources := [markerOf "req-01"]
  config := none
  floor := none

def plain : Args := ⟨false, false, false⟩

def tallyOf (tree : Tree) : Option Tally := (main plain tree).toOption.bind Run.tally

theorem main_of_tallyOf {tree : Tree} {t : Tally} (told : tallyOf tree = some t) :
    ∃ run, main plain tree = .ok run ∧ run.tally = some t := by
  unfold tallyOf at told
  cases ran : main plain tree with
  | error e =>
      rw [ran] at told
      cases told
  | ok run =>
      rw [ran] at told
      exact ⟨run, rfl, told⟩

theorem totals_consistent_pair :
    ∃ run, main plain (pair "req-01" "req-02") = .ok run ∧
      (Consistent (pair "req-01" "req-02") run ⟨2, 1, 1, []⟩ ↔ Apart (pair "req-01" "req-02")) := by
  have told : tallyOf (pair "req-01" "req-02") = some ⟨2, 1, 1, []⟩ := by decide +kernel
  obtain ⟨run, ran, told⟩ := main_of_tallyOf told
  exact ⟨run, ran, totals_consistent_iff plain _ run _ ran told⟩

/-- Every requirement is marked, and one of two is reported as uncovered. -/
theorem shared_id_uncovered :
    ∃ run, main plain (pair "req-01" "req-01") = .ok run ∧ run.tally = some ⟨2, 1, 1, []⟩ ∧
      (∀ p ∈ required (pair "req-01" "req-01"), p.2 ∈ marked (pair "req-01" "req-01")) ∧
      ¬Consistent (pair "req-01" "req-01") run ⟨2, 1, 1, []⟩ := by
  have told : tallyOf (pair "req-01" "req-01") = some ⟨2, 1, 1, []⟩ := by decide +kernel
  have all : ∀ p ∈ required (pair "req-01" "req-01"), p.2 ∈ marked (pair "req-01" "req-01") := by
    decide +kernel
  obtain ⟨run, ran, told⟩ := main_of_tallyOf told
  refine ⟨run, ran, told, all, fun consistent => ?_⟩
  have full := consistent.full all
  cases full

end DevGate.Gate.Traceability
