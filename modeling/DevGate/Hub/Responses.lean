import DevGate.Lib.Fold
import DevGate.Py.JsonText
import DevGate.Hub.Monitor

set_option autoImplicit false

/- Which answers of the GitHub API are well formed, which paths are sent, and that
a request with such a path and such answers does not raise. -/
namespace DevGate.Hub

open Py Fold

/-- A character `http.client` sends in a path. -/
def Sent (c : Chr) : Bool := 0x20 < c.val && c.val != 0x7f && c.val < 0x80

theorem checkSelector_ends {path : Str} :
    Ends (checkSelector path) ↔ (selector path).all Sent = true := by
  unfold checkSelector
  constructor
  · intro ran
    obtain ⟨u, printable, rest⟩ := ends_bind.mp ran
    obtain ⟨u', ascii⟩ := rest
    have first := ensure_ok.mp printable
    have second := ensure_ok.mp ascii
    simp only [List.all_eq_true, Sent, Bool.and_eq_true] at first second ⊢
    exact fun c member => ⟨first c member, second c member⟩
  · intro sent
    simp only [List.all_eq_true, Sent, Bool.and_eq_true] at sent
    refine Ends.bind ⟨(), ensure_ok.mpr ?_⟩ (fun _ _ => ⟨(), ensure_ok.mpr ?_⟩)
    · exact List.all_eq_true.mpr (fun c member => by simpa using (sent c member).1)
    · exact List.all_eq_true.mpr (fun c member => (sent c member).2)

/-- Text that is sent as it stands, wherever it is in a path. -/
def Plain (s : Str) : Bool := s.all (fun c => Sent c && c != Chr.ofChar '#')

theorem hash_not_mem {s : Str} (plain : Plain s = true) : Chr.ofChar '#' ∉ s := by
  intro member
  have marked := List.all_eq_true.mp plain _ member
  simp at marked

theorem sent_of_plain {s : Str} (plain : Plain s = true) : s.all Sent = true := by
  refine List.all_eq_true.mpr (fun c member => ?_)
  have both := List.all_eq_true.mp plain c member
  simp only [Bool.and_eq_true] at both
  exact both.1

theorem selector_append {s post : Str} (plain : Chr.ofChar '#' ∉ post) :
    selector (s ++ post) = if Chr.ofChar '#' ∈ s then selector s else s ++ post := by
  have skipped (back : Str) : (post.reverse ++ back).dropWhile (fun c => c != Chr.ofChar '#') =
      back.dropWhile (fun c => c != Chr.ofChar '#') := by
    rw [List.dropWhile_append_of_pos]
    intro c member
    have other : c ≠ Chr.ofChar '#' := by
      rintro rfl
      exact plain (List.mem_reverse.mp member)
    simpa using other
  unfold selector
  by_cases marked : Chr.ofChar '#' ∈ s
  · simp only [List.mem_append, marked, true_or, ↓reduceIte, List.reverse_append, skipped]
  · simp only [List.mem_append, marked, plain, or_self, ↓reduceIte]

theorem selector_prepend {pre s : Str} (plain : Chr.ofChar '#' ∉ pre) :
    selector (pre ++ s) = pre ++ selector s := by
  unfold selector
  by_cases marked : Chr.ofChar '#' ∈ s
  · have cut : ((pre ++ s).reverse.dropWhile (fun c => c != Chr.ofChar '#')) =
        s.reverse.dropWhile (fun c => c != Chr.ofChar '#') ++ pre.reverse := by
      rw [List.reverse_append, List.dropWhile_append, if_neg]
      simp only [List.isEmpty_iff, List.dropWhile_eq_nil_iff, List.mem_reverse]
      intro all
      simpa using all _ marked
    have found : 0 < (s.reverse.dropWhile (fun c => c != Chr.ofChar '#')).length := by
      rw [List.length_pos_iff]
      intro none
      rw [List.dropWhile_eq_nil_iff] at none
      simpa using none _ (List.mem_reverse.mpr marked)
    simp only [List.mem_append, marked, or_true, ↓reduceIte, cut]
    rw [List.drop_append_of_le_length (by omega), List.reverse_append, List.reverse_reverse]
  · simp only [List.mem_append, plain, marked, or_self, ↓reduceIte]

/-- Between plain texts a part of a path is sent or not by itself. -/
theorem selector_between {pre s post : Str} (before : Plain pre = true) (after : Plain post = true) :
    (selector (pre ++ (s ++ post))).all Sent = true ↔ (selector s).all Sent = true := by
  rw [selector_prepend (hash_not_mem before), List.all_append, sent_of_plain before, Bool.true_and,
    selector_append (hash_not_mem after)]
  by_cases marked : Chr.ofChar '#' ∈ s
  · rw [if_pos marked]
  · rw [if_neg marked, List.all_append, sent_of_plain after, Bool.and_true]
    unfold selector
    rw [if_neg marked]

/-- A repository whose name `http.client` sends. -/
def Sendable (s : Str) : Bool := (selector s).all Sent

theorem plain_append {s t : Str} (left : Plain s = true) (right : Plain t = true) :
    Plain (s ++ t) = true := by
  unfold Plain at *
  rw [List.all_append, left, right, Bool.and_self]

theorem plain_ofInt (n : Int) : Plain (Str.ofInt n) = true := by
  have digits (m : Nat) : Plain (Str.ofNat m) = true := by
    refine List.all_eq_true.mpr (fun c member => ?_)
    have digit := Json.isDigit_of_mem_ofNat member
    simp only [Json.isDigit, Bool.and_eq_true, decide_eq_true_eq] at digit
    have apart : c ≠ Chr.ofChar '#' := by
      rintro rfl
      exact absurd digit (by decide)
    simp only [Sent, Bool.and_eq_true, decide_eq_true_eq, bne_iff_ne, ne_eq]
    exact ⟨⟨⟨by omega, by omega⟩, by omega⟩, apart⟩
  cases n with
  | ofNat m => exact digits m
  | negSucc m => exact plain_append (s := [Chr.ofChar '-']) (by decide) (digits (m + 1))

/-- `/repos/{repo}` and a plain rest. -/
theorem repo_path_ends {printer : Printer} {request : Endpoint} (repo rest : Str)
    (path : printer.render request.path = "/repos/" ++ (repo ++ rest)) (plain : Plain rest = true) :
    Ends (checkSelector (printer.render request.path)) ↔ Sendable repo = true := by
  rw [path, checkSelector_ends, selector_between (by decide) plain, Sendable]

theorem separatorAt_le (s : Str) : Datetime.separatorAt s ≤ 10 := by
  unfold Datetime.separatorAt
  dsimp only
  split_ifs <;> omega

theorem parseOffset_cons {mark : Chr} {rest : Str} {offset : Option Int}
    (read : Datetime.parseOffset (mark :: rest) = some offset) : offset.isSome = true := by
  rw [Datetime.parseOffset] at read
  split at read
  · split at read
    · cases read
      rfl
    · cases read
  · obtain ⟨⟨hour, minute, second, micro⟩, -, rest⟩ := Option.bind_eq_some_iff.mp read
    dsimp only at rest
    split at rest
    · cases rest
      rfl
    · cases rest

/-- A text with its offset at its end is never read as a naive time. -/
theorem parse?_aware {front : Str} {t : Datetime} (long : 11 ≤ front.length)
    (read : Datetime.parse? (front ++ "+00:00") = some t) : t.offset.isSome = true := by
  unfold Datetime.parse? at read
  have cut := separatorAt_le (front ++ "+00:00")
  rw [if_neg (by rw [List.length_append]; omega)] at read
  obtain ⟨ordinal, -, rest⟩ := Option.bind_eq_some_iff.mp read
  rw [if_neg (by rw [List.length_append]; omega)] at rest
  obtain ⟨⟨clock, offset⟩, timed, made⟩ := Option.bind_eq_some_iff.mp rest
  cases made
  obtain ⟨⟨hour, minute, second, micro⟩, -, rest⟩ := Option.bind_eq_some_iff.mp timed
  obtain ⟨found, marked, rest⟩ := Option.bind_eq_some_iff.mp rest
  split at rest
  · cases rest
    rw [List.drop_append_of_le_length (by omega)] at marked
    cases tail : List.dropWhile (fun c => !Datetime.isOffsetMark c)
        (front.drop (Datetime.separatorAt (front ++ "+00:00") + 1) ++ "+00:00") with
    | nil =>
        rw [List.dropWhile_eq_nil_iff] at tail
        have sign := tail (Chr.ofChar '+') (List.mem_append_right _ (by decide))
        exact absurd sign (by decide)
    | cons mark later =>
        rw [tail] at marked
        exact parseOffset_cons marked
  · cases rest

theorem length_padded (width n : Nat) : (Utc.padded width n).length = width := by
  induction width generalizing n with
  | zero => rfl
  | succ width ih => rw [Utc.padded, List.length_cons, ih]

theorem length_replace (s : Str) (c : Chr) {t : Str} (some : t ≠ []) :
    s.length ≤ (Str.replace s c t).length := by
  have positive := List.length_pos_of_ne_nil some
  induction s with
  | nil => exact Nat.zero_le _
  | cons d rest ih =>
      have grown : (Str.replace (d :: rest) c t).length =
          (if d = c then t else [d]).length + (Str.replace rest c t).length := by
        simp [Str.replace]
      have here : 1 ≤ (if d = c then t else [d]).length := by
        split
        · exact positive
        · exact le_refl _
      rw [grown, List.length_cons]
      omega

/-- Every time the hub writes is read as one with an offset, where it is read. -/
theorem parseIso_nowIso (clock : Clock) :
    ∃ read, parseIso (.str (nowIso clock)) = .ok read ∧
      ∀ t, read = some t → t.offset.isSome = true := by
  obtain ⟨front, written, long⟩ : ∃ front, nowIso clock = front ++ "Z" ∧ front.length = 19 := by
    refine ⟨Utc.padded 4 clock.year ++ ("-" ++ (Utc.padded 2 clock.month ++ ("-" ++
      (Utc.padded 2 clock.day ++ ("T" ++ (Utc.padded 2 clock.hour ++ (":" ++
        (Utc.padded 2 clock.minute ++ (":" ++ Utc.padded 2 clock.second))))))))), ?_, ?_⟩
    · simp [nowIso, Utc.isoSeconds, Utc.Layout.write]
    · simp only [List.length_append, length_padded]
      rfl
  have replaced : Str.replace (nowIso clock) (Chr.ofChar 'Z') "+00:00" =
      Str.replace front (Chr.ofChar 'Z') "+00:00" ++ "+00:00" := by
    rw [written, Str.replace, List.flatMap_append]
    rfl
  have wide := length_replace front (Chr.ofChar 'Z') (t := "+00:00") (by decide)
  have truthy : (Value.str (nowIso clock)).truthy = true := by
    have some : nowIso clock ≠ [] := by
      intro none
      rw [none] at written
      have size := congrArg List.length written
      rw [List.length_append, List.length_nil] at size
      omega
    simpa [Value.truthy] using some
  unfold parseIso
  rw [truthy, if_neg (by simp)]
  dsimp only
  rw [replaced, Datetime.fromisoformat]
  cases read : Datetime.parse? (Str.replace front (Chr.ofChar 'Z') "+00:00" ++ "+00:00") with
  | none => exact ⟨none, rfl, by simp⟩
  | some t =>
      refine ⟨some t, rfl, ?_⟩
      rintro t' same
      cases same
      exact parse?_aware (by omega) read

/-- null, or a time as GitHub writes it. -/
def Stamp (v : Value) : Prop := v = .null ∨ ∃ clock : Clock, v = .str (nowIso clock)

/-- null, or a word. -/
def Word (v : Value) : Prop := v = .null ∨ ∃ s, v = .str s

/-- The object of a listing: its `key` has a list of such items. -/
def Listing (key : Str) (item : List (Str × Value) → Prop) (body : Value) : Prop :=
  ∃ fields items, body = .dict fields ∧ Dict.get? fields key = some (.list items) ∧
    ∀ v ∈ items, ∃ inner, v = .dict inner ∧ item inner

def isHex (s : Str) : Bool := s.all (fun c => c ∈ ("0123456789abcdef" : Str))

/-- The bodies GitHub answers a request with. -/
def Shaped : Endpoint → Value → Prop
  | .runners _ => Listing "runners" (fun r => ∃ name, Dict.get? r "name" = some (.str name))
  | .queuedRuns _ => Listing "workflow_runs" (fun r => Stamp ((Dict.get? r "created_at").getD .null))
  | .commit _ _ => fun body => ∃ fields sha, body = .dict fields ∧
      Dict.get? fields "sha" = some (.str sha) ∧ isHex sha = true
  | .checkRuns _ _ => Listing "check_runs" (fun c => Word ((Dict.get? c "conclusion").getD .null))
  | .workflows _ => Listing "workflows" (fun w => ∃ name id,
      Dict.get? w "name" = some (.str name) ∧ Dict.get? w "id" = some (.int id))
  | .workflowRuns _ _ _ => Listing "workflow_runs" (fun r =>
      Word ((Dict.get? r "conclusion").getD .null) ∧ Stamp ((Dict.get? r "completed_at").getD .null))

/-- The body of a rate-limited answer: a wait in it is a number of seconds. -/
def Limited (body : Value) : Prop :=
  ∃ fields, body = .dict fields ∧ ∀ key ∈ (["retry_after", "X-Retry-After"] : List Str),
    Dict.get? fields key = none ∨ ∃ n : Nat, Dict.get? fields key = some (.int n)

/-- The server answers every request: a 200 with a body of its shape, or an error. -/
structure WellFormed (net : Outside) : Prop where
  answered : ∀ n request, ∃ status body, net.answer n request = .ok (status, body) ∧
    (status = 200 → Shaped request body) ∧ (status = 403 ∨ status = 429 → Limited body)
  aware : ∀ n, (net.clock n).offset.isSome = true

theorem backOff_ends {net : Outside} {body : Value} (limited : Limited body)
    (backoffMax attempt : Nat) : Ends (net.backOff backoffMax attempt body) := by
  obtain ⟨fields, rfl, waits⟩ := limited
  have first := waits "retry_after" (by simp)
  have second := waits "X-Retry-After" (by simp)
  have given : ∀ v : Value, v = .null ∨ (∃ n : Nat, v = .int n) →
      Ends (do
        let wait ← if v.truthy then net.unicode.int v else pure (2 ^ attempt * 10)
        ensure (0 ≤ min wait (backoffMax : Int))
          ⟨.valueError, ["sleep length must be non-negative"]⟩) := by
    rintro v (rfl | ⟨n, rfl⟩)
    · exact ⟨(), ensure_ok.mpr (by positivity)⟩
    · by_cases waiting : (Value.int n).truthy = true
      · rw [if_pos waiting]
        exact ⟨(), ensure_ok.mpr (by positivity)⟩
      · rw [if_neg waiting]
        exact ⟨(), ensure_ok.mpr (by positivity)⟩
  have number : ∀ v : Option Value, (v = none ∨ ∃ n : Nat, v = some (.int n)) →
      v.getD .null = .null ∨ ∃ n : Nat, v.getD .null = .int n := by
    rintro v (rfl | ⟨n, rfl⟩)
    · exact Or.inl rfl
    · exact Or.inr ⟨n, rfl⟩
  unfold Outside.backOff
  simp only [Value.get_dict, ok_bind]
  apply given
  split
  · exact number _ first
  · exact number _ second

/-- A request with a path that is sent ends; a 200 it answers has its shape. -/
theorem getFrom_ends {net : Outside} (wellFormed : WellFormed net) {request : Endpoint}
    (sent : Ends (checkSelector (net.printer.render request.path))) (backoffMax : Nat)
    (left attempt : Nat) (s : Polled) :
    ∃ result s', net.getFrom backoffMax request attempt left s = .ok (result, s') ∧
      ∀ body, result = some (200, body) → Shaped request body := by
  induction left generalizing attempt s with
  | zero => exact ⟨none, s, rfl, by simp⟩
  | succ left ih =>
      obtain ⟨⟨⟩, sending⟩ := sent
      obtain ⟨status, body, answered, shaped, limited⟩ := wellFormed.answered s.statuses.length request
      have got : net.get request s =
          .ok ((status, body), { s with statuses := s.statuses ++ [status] }) := by
        simp [Outside.get, sending, answered]
      rw [Outside.getFrom, got, ok_bind]
      dsimp only
      by_cases waits : status = 403 ∨ status = 429
      · rw [if_pos waits]
        obtain ⟨⟨⟩, waited⟩ := @backOff_ends net body (limited waits) backoffMax attempt
        obtain ⟨result, s', ran, fine⟩ := ih (attempt + 1) { s with statuses := s.statuses ++ [status] }
        refine ⟨result, s', ?_, fine⟩
        rw [waited, ok_bind]
        exact ran
      · rw [if_neg waits]
        refine ⟨some (status, body), _, rfl, ?_⟩
        intro body' same
        cases same
        exact shaped rfl

/-- A check that asks one request ends where the path is sent and what it does
with a body of the request's shape ends. -/
theorem onOk_ends {net : Outside} (wellFormed : WellFormed net) {request : Endpoint}
    (sent : Ends (checkSelector (net.printer.render request.path)))
    {next : Value → Polled → Except Exc Polled}
    (later : ∀ body s, Shaped request body → Ends (next body s)) (backoffMax : Nat) (s : Polled) :
    Ends (net.onOk backoffMax request next s) := by
  obtain ⟨result, s', ran, fine⟩ := getFrom_ends wellFormed sent backoffMax 3 0 s
  unfold Outside.onOk Outside.getWithBackoff
  rw [ran, ok_bind]
  cases result with
  | none => exact ⟨s', rfl⟩
  | some answer =>
      obtain ⟨status, body⟩ := answer
      dsimp only
      by_cases good : status = 200
      · subst good
        exact later body s' (fine body rfl)
      · rw [if_pos good]
        exact ⟨s', rfl⟩

/-- A check that ended sent its request. -/
theorem sent_of_onOk {net : Outside} {backoffMax : Nat} {request : Endpoint}
    {next : Value → Polled → Except Exc Polled} {s : Polled}
    (ran : Ends (net.onOk backoffMax request next s)) :
    Ends (checkSelector (net.printer.render request.path)) := by
  obtain ⟨answer, asked, -⟩ := ends_bind.mp ran
  rw [Outside.getWithBackoff, Outside.getFrom] at asked
  obtain ⟨got, first, -⟩ := ends_bind.mp ⟨answer, asked⟩
  obtain ⟨u, sending, -⟩ := ends_bind.mp ⟨got, first⟩
  exact ⟨u, sending⟩

end DevGate.Hub
