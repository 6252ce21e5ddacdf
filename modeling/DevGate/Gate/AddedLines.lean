import DevGate.Gate.TreeDiff

set_option autoImplicit false

/- When the added lines and the changed files of a diff between two trees are read back exactly. -/
namespace DevGate.Gate.Diff

open Py Fold

/-! One line of a diff. -/

section

variable {u : Unicode}

theorem readLine_context (r : Reader) (text : Str) :
    readLine u r (blank :: text) = .ok { r with lineno := r.lineno + 1 } := rfl

theorem readLine_note (r : Reader) (text : Str) :
    readLine u r (Chr.ofChar '\\' :: text) = .ok r := rfl

/-- A removed line is passed over, whatever it holds. -/
theorem readLine_removed (r : Reader) (text : Str) : readLine u r (minus :: text) = .ok r := by
  have start : readLine u r (minus :: text) =
      if [minus].isPrefixOf (minus :: text) && !([minus, minus, minus].isPrefixOf (minus :: text)) then
        .ok r
      else .ok r := rfl
  rw [start, ite_self]

theorem hunkStart_small {h : Placed} (small : h.newStart < 10 ^ Json.maxDigits) :
    hunkStart u h.headline = .ok h.newStart := by
  have found : plusDigits u h.headline = (Str.ofNat h.newStart).map (fun d => d.val - 48) :=
    plusDigits_headline u _ _ _ _ _
  have fits : ¬ Json.maxDigits < (plusDigits u h.headline).length := by
    rw [found, List.length_map]
    exact Nat.not_lt.mpr (ofNat_length small)
  rw [hunkStart, if_neg fits, found, natOfDigits_ofNat]

theorem small_of_hunkStart {h : Placed} (ends : Ends (hunkStart u h.headline)) :
    h.newStart < 10 ^ Json.maxDigits := by
  have found : plusDigits u h.headline = (Str.ofNat h.newStart).map (fun d => d.val - 48) :=
    plusDigits_headline u _ _ _ _ _
  unfold hunkStart at ends
  by_cases long : Json.maxDigits < (plusDigits u h.headline).length
  · rw [if_pos long] at ends
    exact absurd ends (ends_error _)
  · rw [found, List.length_map] at long
    unfold Str.ofNat at long
    rw [List.length_map] at long
    exact (Nat.length_toDigits_le_iff (by decide) (by decide)).mp (Nat.not_lt.mp long)

theorem readLine_placed (r : Reader) (h : Placed) :
    readLine u r h.headline = (do return { r with lineno := ← hunkStart u h.headline }) := by
  have unlabelled : header.isPrefixOf h.headline = false := rfl
  have marked : [atSign, atSign].isPrefixOf h.headline = true := rfl
  simp only [readLine, unlabelled, marked, Bool.false_eq_true, ↓reduceIte]

/-! The lines of a hunk, and of a file. -/

/-- What is kept under a file name: nothing where it is empty. -/
def keptUnder (path : Str) (found : List Added) : List Added := if path = [] then [] else found

theorem keptUnder_append (path : Str) (front back : List Added) :
    keptUnder path (front ++ back) = keptUnder path front ++ keptUnder path back := by
  unfold keptUnder
  split
  · rfl
  · rfl

theorem keptUnder_nil (path : Str) : keptUnder path [] = [] := by
  unfold keptUnder
  split
  · rfl
  · rfl

/-- The lines of a hunk are counted, and its added lines are found. -/
theorem read_body {body : List BodyLine} (plain : ∀ l, .added l ∈ body → Plain l.text)
    (r : Reader) :
    (body.map BodyLine.print).foldlM (readLine u) r = .ok
      { path := r.path
        lineno := r.lineno + body.countP BodyLine.inNew
        added := r.added ++ keptUnder r.path (numbered r.path r.lineno body) } := by
  induction body generalizing r with
  | nil =>
      rw [numbered, keptUnder_nil, List.append_nil]
      rfl
  | cons line rest ih =>
      have later := ih (fun l member => plain l (List.mem_cons_of_mem _ member))
      rw [List.map_cons, List.foldlM_cons]
      cases line with
      | context l =>
          rw [BodyLine.print, readLine_context, ok_bind, later,
            List.countP_cons_of_pos rfl, Nat.add_right_comm, Nat.add_assoc]
          rfl
      | removed l =>
          rw [BodyLine.print, readLine_removed, ok_bind, later,
            List.countP_cons_of_neg Bool.false_ne_true]
          rfl
      | note l =>
          rw [BodyLine.print, readLine_note, ok_bind, later,
            List.countP_cons_of_neg Bool.false_ne_true]
          rfl
      | added l =>
          rw [BodyLine.print, readLine_added u r (plain l List.mem_cons_self), ok_bind, later,
            List.countP_cons_of_pos rfl, Nat.add_right_comm, Nat.add_assoc]
          have first : numbered r.path r.lineno (.added l :: rest) =
              ⟨r.path, r.lineno, l.text⟩ :: numbered r.path (r.lineno + 1) rest := rfl
          rw [first]
          unfold keptUnder
          by_cases nameless : r.path = []
          · simp only [if_pos nameless, List.append_nil]
          · simp only [if_neg nameless, List.append_assoc, List.singleton_append]

/-- The hunks under one label. -/
theorem read_hunks {hunks : List Placed}
    (plain : ∀ h ∈ hunks, ∀ l, .added l ∈ h.body → Plain l.text)
    (small : ∀ h ∈ hunks, h.newStart < 10 ^ Json.maxDigits) (r : Reader) :
    ∃ r', (hunks.flatMap Placed.lines).foldlM (readLine u) r = .ok r' ∧ r'.path = r.path ∧
      r'.added = r.added ++
        keptUnder r.path (hunks.flatMap (fun h => numbered r.path h.newStart h.body)) := by
  induction hunks generalizing r with
  | nil => exact ⟨r, rfl, rfl, by rw [List.flatMap_nil, keptUnder_nil, List.append_nil]⟩
  | cons h rest ih =>
      rw [List.forall_mem_cons] at plain small
      have here := read_body (u := u) plain.1 { r with lineno := h.newStart }
      obtain ⟨r', ran, path, found⟩ := ih plain.2 small.2 { r with
        lineno := h.newStart + h.body.countP BodyLine.inNew
        added := r.added ++ keptUnder r.path (numbered r.path h.newStart h.body) }
      refine ⟨r', ?_, path, ?_⟩
      · rw [List.flatMap_cons, Placed.lines, List.cons_append, List.foldlM_cons, readLine_placed,
          hunkStart_small small.1]
        dsimp only [ok_bind, pure_ok]
        rw [List.foldlM_append, here, ok_bind]
        exact ran
      · rw [found, List.flatMap_cons, keptUnder_append, List.append_assoc]

end

/-! The name that a label says. -/

/-- The name ends in no white space. -/
def Closed (s : Str) : Prop := ∀ c ∈ s.getLast?, Re.isSpace c = false

theorem dropWhile_of_head {s : Str} (solid : ∀ c ∈ s.head?, Re.isSpace c = false) :
    s.dropWhile Re.isSpace = s := by
  cases s with
  | nil => rfl
  | cons c rest => rw [List.dropWhile_cons, if_neg (by rw [solid c rfl]; exact Bool.false_ne_true)]

theorem head_dropWhile {s : Str} : ∀ c ∈ (s.dropWhile Re.isSpace).head?, Re.isSpace c = false := by
  intro c first
  rw [Option.mem_def] at first
  have stopped := List.head?_dropWhile_not Re.isSpace s
  rw [first] at stopped
  exact stopped

theorem closed_strip (s : Str) : Closed (Str.strip s) := by
  unfold Closed Str.strip
  rw [List.getLast?_reverse]
  exact head_dropWhile

/-- Blanks after a text that starts and ends with none are stripped. -/
theorem strip_closed {c : Chr} (solid : Re.isSpace c = false) {rest blanks : Str}
    (closed : Closed (c :: rest)) (white : ∀ b ∈ blanks, Re.isSpace b = true) :
    Str.strip (c :: rest ++ blanks) = c :: rest := by
  have front : (c :: rest ++ blanks).dropWhile Re.isSpace = c :: rest ++ blanks := by
    apply dropWhile_of_head
    rintro d ⟨⟩
    exact solid
  have back : (c :: rest ++ blanks).reverse.dropWhile Re.isSpace = (c :: rest).reverse := by
    rw [List.reverse_append, List.dropWhile_append_of_pos
      (fun b inside => white b (List.mem_reverse.mp inside))]
    apply dropWhile_of_head
    rw [List.head?_reverse]
    exact closed
  unfold Str.strip
  rw [front, back, List.reverse_reverse]

theorem fileName_suffix (s : Str) : fileName s <:+ s := by
  unfold fileName
  split
  · exact List.suffix_refl _
  · exact List.suffix_refl _
  · next c d rest =>
      split
      · exact ⟨[c, d], rfl⟩
      · exact List.suffix_refl _

/-- A name that is read ends in no white space. -/
theorem closed_target {raw name : Str} (read : target raw = some name) : Closed name := by
  unfold target at read
  dsimp only at read
  split at read
  · cases read
  · cases read
    intro c last
    obtain ⟨front, same⟩ := fileName_suffix (Str.strip (raw.drop 4))
    apply closed_strip (raw.drop 4) c
    rw [← same, List.getLast?_append, Option.mem_def.mp last]
    rfl

/-- The label of a file that stands names it, where its name ends in no white space. -/
theorem target_label {f : FileDiff} (present : f.inNew = true) (closed : Closed f.path.text) :
    target (header ++ f.label) = some f.path.text := by
  have white : ∀ b ∈ (if blank ∈ f.path.text then [Chr.ofChar '\t'] else []),
      Re.isSpace b = true := by
    intro b inside
    split at inside
    · rw [List.mem_singleton.mp inside]
      rfl
    · cases inside
  have ends : Closed (Chr.ofChar 'b' :: Chr.ofChar '/' :: f.path.text) := by
    intro c last
    rw [List.getLast?_cons_of_ne_nil (by simp), List.getLast?_cons_of_ne_nil f.named] at last
    exact closed c last
  have stripped := strip_closed (c := Chr.ofChar 'b') (by decide) ends white
  have dropped : (header ++ f.label).drop 4 = Chr.ofChar 'b' :: Chr.ofChar '/' :: f.path.text ++
      if blank ∈ f.path.text then [Chr.ofChar '\t'] else [] := by
    rw [FileDiff.label, if_pos present]
    rfl
  unfold target
  rw [dropped, stripped]
  rfl

theorem target_gone {f : FileDiff} (gone : f.inNew = false) : target (header ++ f.label) = none := by
  rw [FileDiff.label, gone]
  rfl

/-! Whole diffs. -/

section

variable {u : Unicode}

theorem mem_placed {old new : Nat} {blocks : List Block} {h : Placed}
    (inside : h ∈ placed old new blocks) : ∃ b ∈ blocks, h.body = b.body := by
  induction blocks generalizing old new with
  | nil => cases inside
  | cons b rest ih =>
      rcases List.mem_cons.mp inside with rfl | later
      · exact ⟨b, List.mem_cons_self, rfl⟩
      · obtain ⟨other, member, same⟩ := ih later
        exact ⟨other, List.mem_cons_of_mem _ member, same⟩

theorem read_preface {lines : List Line}
    (quiet : ∀ l ∈ lines, l.text.head? ≠ some plus ∧ l.text.head? ≠ some atSign) (r : Reader) :
    ∃ n, (lines.map Line.text).foldlM (readLine u) r = .ok { r with lineno := n } := by
  induction lines generalizing r with
  | nil => exact ⟨r.lineno, rfl⟩
  | cons l rest ih =>
      rw [List.forall_mem_cons] at quiet
      obtain ⟨n, step⟩ := readLine_quiet u r quiet.1.1 quiet.1.2
      obtain ⟨n', later⟩ := ih quiet.2 { r with lineno := n }
      refine ⟨n', ?_⟩
      rw [List.map_cons, List.foldlM_cons, step, ok_bind, later]

/-- A file that is gone has no added lines. -/
theorem added_gone {f : FileDiff} (gone : f.inNew = false) : f.added = [] := by
  unfold FileDiff.added
  rw [List.flatMap_eq_nil_iff]
  intro h inside
  obtain ⟨b, member, same⟩ := mem_placed inside
  apply numbered_nil
  rw [same, countP_inNew, List.length_eq_zero_iff]
  have empty := (List.append_eq_nil_iff.mp (f.deleted gone)).1
  rw [List.flatMap_eq_nil_iff] at empty
  exact (List.append_eq_nil_iff.mp (empty b member)).2

/-- What the diff of a file has to keep to, to be read exactly. -/
structure FileDiff.Legible (f : FileDiff) : Prop where
  plain : ∀ b ∈ f.blocks, ∀ l, .added l ∈ b.body → Plain l.text
  shown : f.inNew = true → f.blocks ≠ []
  closed : f.inNew = true → Closed f.path.text
  small : ∀ h ∈ f.hunks, h.newStart < 10 ^ Json.maxDigits

theorem read_file {f : FileDiff} (legible : f.Legible) (r : Reader) :
    ∃ r', f.lines.foldlM (readLine u) r = .ok r' ∧ r'.added = r.added ++ f.added := by
  obtain ⟨n, opened⟩ := read_preface (u := u) f.quiet r
  unfold FileDiff.lines
  rw [List.foldlM_append, opened, ok_bind]
  by_cases bare : f.blocks = []
  · rw [if_pos bare]
    have none_ : f.added = [] := by
      rw [FileDiff.added, FileDiff.hunks, bare]
      rfl
    exact ⟨{ r with lineno := n }, rfl, by rw [none_, List.append_nil]⟩
  · rw [if_neg bare, List.foldlM_cons, readLine_label, ok_bind]
    have plain : ∀ h ∈ f.hunks, ∀ l, .added l ∈ h.body → Plain l.text := by
      intro h inside l member
      obtain ⟨b, known, same⟩ := mem_placed inside
      rw [same] at member
      exact legible.plain b known l member
    obtain ⟨r', ran, -, found⟩ := read_hunks (u := u) plain legible.small
      { r with lineno := n, path := (target (header ++ f.label)).getD [] }
    refine ⟨r', ran, ?_⟩
    rw [found]
    dsimp only
    cases present : f.inNew with
    | true =>
        rw [target_label present (legible.closed present), Option.getD_some, keptUnder,
          if_neg f.named]
        rfl
    | false =>
        rw [added_gone present, target_gone present]
        rfl

theorem read_files {files : List FileDiff} (legible : ∀ f ∈ files, f.Legible) (r : Reader) :
    ∃ r', (files.flatMap FileDiff.lines).foldlM (readLine u) r = .ok r' ∧
      r'.added = r.added ++ files.flatMap FileDiff.added := by
  induction files generalizing r with
  | nil => exact ⟨r, rfl, (List.append_nil _).symm⟩
  | cons f rest ih =>
      rw [List.forall_mem_cons] at legible
      obtain ⟨mid, here, found⟩ := read_file (u := u) legible.1 r
      obtain ⟨r', later, more⟩ := ih legible.2 mid
      refine ⟨r', ?_, ?_⟩
      · rw [List.flatMap_cons, List.foldlM_append, here, ok_bind, later]
      · rw [more, found, List.flatMap_cons, List.append_assoc]

theorem Placed.unbroken (h : Placed) : ∀ l ∈ h.lines, newline ∉ l := by
  unfold Placed.lines
  rw [List.forall_mem_cons]
  constructor
  · unfold Placed.headline
    simp only [List.mem_append, not_or]
    exact ⟨⟨by decide, newline_not_mem_span _ _⟩, by decide, newline_not_mem_span _ _,
      by decide, h.heading.unbroken⟩
  · intro l member
    obtain ⟨line, -, same⟩ := List.mem_map.mp member
    rw [← same]
    exact line.unbroken

theorem FileDiff.unbroken (f : FileDiff) : ∀ l ∈ f.lines, newline ∉ l := by
  intro l member
  rcases List.mem_append.mp member with early | late
  · obtain ⟨line, -, same⟩ := List.mem_map.mp early
    rw [← same]
    exact line.unbroken
  · split at late
    · cases late
    · rcases List.mem_cons.mp late with rfl | inside
      · have closing : newline ∉ (if blank ∈ f.path.text then [Chr.ofChar '\t'] else []) := by
          split <;> decide
        unfold FileDiff.label
        split
        · simp only [List.mem_append, not_or]
          exact ⟨by decide, ⟨by decide, f.path.unbroken⟩, closing⟩
        · decide
      · obtain ⟨h, -, here⟩ := List.mem_flatMap.mp inside
        exact h.unbroken l here

theorem TreeDiff.split_print {before after : Tree} (d : TreeDiff before after) :
    Str.split newline d.print = d.files.flatMap FileDiff.lines ++ [[]] := by
  refine split_lines (fun l member => ?_)
  obtain ⟨f, -, here⟩ := List.mem_flatMap.mp member
  exact f.unbroken l here

/-- The lines of a legible file that look like a label are its label. -/
theorem FileDiff.header_line {f : FileDiff} (plain : ∀ b ∈ f.blocks, ∀ l, .added l ∈ b.body →
    Plain l.text) {raw : Str} (inside : raw ∈ f.lines) (front : header.isPrefixOf raw = true) :
    f.blocks ≠ [] ∧ raw = header ++ f.label := by
  have first : raw.head? = some plus := by
    obtain ⟨later, same⟩ := List.isPrefixOf_iff_prefix.mp front
    rw [← same]
    rfl
  rcases List.mem_append.mp inside with early | late
  · obtain ⟨line, known, same⟩ := List.mem_map.mp early
    exact absurd (same ▸ first) (f.quiet line known).1
  · split at late
    · cases late
    · next shown =>
        refine ⟨shown, ?_⟩
        rcases List.mem_cons.mp late with same | inside
        · exact same
        · obtain ⟨h, placed_, here⟩ := List.mem_flatMap.mp inside
          obtain ⟨b, known, body⟩ := mem_placed placed_
          rcases List.mem_cons.mp here with rfl | printed
          · have mark : h.headline.head? = some atSign := rfl
            rw [mark] at first
            exact absurd first (by decide)
          · obtain ⟨line, member, rfl⟩ := List.mem_map.mp printed
            cases line with
            | context l => exact absurd first (by simp [BodyLine.print]; decide)
            | removed l => exact absurd first (by simp [BodyLine.print]; decide)
            | note l => exact absurd first (by simp [BodyLine.print]; decide)
            | added l =>
                rw [body] at member
                exact absurd (header_of_plus front) (plain b known l member)

variable {before after : Tree} {d : TreeDiff before after}

theorem mem_headed (plain : ∀ f ∈ d.files, ∀ b ∈ f.blocks, ∀ l, .added l ∈ b.body → Plain l.text)
    (name : Str) : name ∈ headed d.print ↔
      ∃ f ∈ d.files, f.blocks ≠ [] ∧ target (header ++ f.label) = some name := by
  unfold headed
  rw [d.split_print, List.mem_filterMap]
  constructor
  · rintro ⟨raw, inside, read⟩
    split at read
    · next front =>
        rcases List.mem_append.mp inside with printed | last
        · obtain ⟨f, member, here⟩ := List.mem_flatMap.mp printed
          obtain ⟨shown, rfl⟩ := f.header_line (plain f member) here front
          exact ⟨f, member, shown, read⟩
        · rw [List.mem_singleton.mp last] at front
          cases front
    · cases read
  · rintro ⟨f, member, shown, read⟩
    refine ⟨header ++ f.label, List.mem_append_left _ (List.mem_flatMap.mpr ⟨f, member, ?_⟩), ?_⟩
    · unfold FileDiff.lines
      rw [if_neg shown]
      exact List.mem_append_right _ List.mem_cons_self
    · rw [if_pos (List.isPrefixOf_iff_prefix.mpr (List.prefix_append _ _)), read]

end

/-- The added lines of the diff are read with their files, numbers and texts, and of its files
those that stand in the new tree are named. -/
def Recovered (u : Unicode) {before after : Tree} (d : TreeDiff before after) : Prop :=
  parseDiff u d.print = .ok d.added ∧
    ∀ runGit staged unstaged gitRange,
      collectGitScope u runGit ⟨staged, unstaged, false, none, gitRange⟩ = .ok [d.print] →
      ∃ names, getChangedFiles u runGit staged unstaged gitRange = .ok names ∧
        ∀ path, path ∈ names ↔ (∃ f ∈ d.files, f.path.text = path) ∧ (after path).isSome = true

section

variable {u : Unicode} {before after : Tree} {d : TreeDiff before after}

theorem mem_numbered {path : Str} {n : Nat} {body : List BodyLine} {l : Line}
    (inside : .added l ∈ body) : ∃ a ∈ numbered path n body, a.text = l.text := by
  induction body generalizing n with
  | nil => cases inside
  | cons line rest ih =>
      rcases List.mem_cons.mp inside with rfl | later
      · exact ⟨_, List.mem_cons_self, rfl⟩
      · cases line with
        | context l => exact ih later
        | removed l => exact ih later
        | note l => exact ih later
        | added l =>
            obtain ⟨a, member, same⟩ := ih (n := n + 1) later
            exact ⟨a, List.mem_cons_of_mem _ member, same⟩

theorem placed_of_mem {old new : Nat} {blocks : List Block} {b : Block} (inside : b ∈ blocks) :
    ∃ h ∈ placed old new blocks, h.body = b.body := by
  induction blocks generalizing old new with
  | nil => cases inside
  | cons first rest ih =>
      rcases List.mem_cons.mp inside with rfl | later
      · exact ⟨_, List.mem_cons_self, rfl⟩
      · obtain ⟨h, member, same⟩ := ih later
        exact ⟨h, List.mem_cons_of_mem _ member, same⟩

/-- Where the added lines are read, none of them looks like a label. -/
theorem plain_of_parsed (parsed : parseDiff u d.print = .ok d.added) :
    ∀ f ∈ d.files, ∀ b ∈ f.blocks, ∀ l, .added l ∈ b.body → Plain l.text := by
  intro f member b known l inside
  obtain ⟨h, placed_, body⟩ := @placed_of_mem 0 0 _ _ known
  rw [← body] at inside
  obtain ⟨a, here, same⟩ := @mem_numbered f.path.text h.newStart _ _ inside
  rw [← same]
  exact parsed_plain parsed a (List.mem_flatMap.mpr ⟨f, member, List.mem_flatMap.mpr
    ⟨h, placed_, here⟩⟩)

/-- Where the diff is read without an error, the numbers of its hunks are. -/
theorem small_of_parsed (parsed : parseDiff u d.print = .ok d.added) :
    ∀ f ∈ d.files, ∀ h ∈ f.hunks, h.newStart < 10 ^ Json.maxDigits := by
  intro f member h inside
  obtain ⟨r, ran, -⟩ := bind_ok.mp parsed
  have shown : f.blocks ≠ [] := by
    intro bare
    rw [FileDiff.hunks, bare] at inside
    cases inside
  have printed : h.headline ∈ Str.split newline d.print := by
    rw [d.split_print]
    refine List.mem_append_left _ (List.mem_flatMap.mpr ⟨f, member, ?_⟩)
    unfold FileDiff.lines
    rw [if_neg shown]
    exact List.mem_append_right _ (List.mem_cons_of_mem _
      (List.mem_flatMap.mpr ⟨h, inside, List.mem_cons_self⟩))
  obtain ⟨r', step⟩ := ends_of_foldlM ⟨r, ran⟩ h.headline printed
  rw [readLine_placed] at step
  obtain ⟨n, started, -⟩ := ends_bind.mp step
  exact small_of_hunkStart ⟨n, started⟩

theorem mem_changed {runGit : Git} {staged unstaged : Bool} {gitRange : Option Str} {names : List Str}
    (collected : collectGitScope u runGit ⟨staged, unstaged, false, none, gitRange⟩ = .ok [d.print])
    (ran : getChangedFiles u runGit staged unstaged gitRange = .ok names) (name : Str) :
    name ∈ names ↔ name ∈ headed d.print := by
  rw [getChangedFiles, collected] at ran
  cases ran
  rw [(Str.perm_sorted _).mem_iff, List.mem_dedup, List.flatMap_singleton]

theorem isSome_after {f : FileDiff} (member : f ∈ d.files) :
    (after f.path.text).isSome = f.inNew := by
  rw [d.new f member, FileDiff.new?]
  cases f.inNew <;> rfl

theorem same_file {f g : FileDiff} (first : f ∈ d.files) (second : g ∈ d.files)
    (same : f.path.text = g.path.text) : f = g :=
  List.inj_on_of_nodup_map d.distinct first second same

/-- The added lines of a diff are read back exactly, and its files that stand are named, where no
added text starts with `++`, each file that stands has a hunk and a name that ends in no white
space, and no hunk starts at a number of more digits than `int` takes; and only there. -/
theorem recovered_iff (u : Unicode) {before after : Tree} (d : TreeDiff before after) :
    Recovered u d ↔ ∀ f ∈ d.files, f.Legible := by
  constructor
  · rintro ⟨parsed, changed⟩
    have plain := plain_of_parsed parsed
    have collected : collectGitScope u (fun _ => ⟨0, d.print, []⟩) ⟨true, false, false, none, none⟩ =
        .ok [d.print] := rfl
    obtain ⟨names, ran, exact_⟩ := changed _ true false none collected
    -- a file that stands is named, by the label of some file that does
    have stands : ∀ f ∈ d.files, f.inNew = true → f.blocks ≠ [] ∧ Closed f.path.text := by
      intro f member present
      have listed : f.path.text ∈ names :=
        (exact_ _).mpr ⟨⟨f, member, rfl⟩, by rw [isSome_after member, present]⟩
      rw [mem_changed collected ran, mem_headed plain] at listed
      obtain ⟨g, known, shown, read⟩ := listed
      have standing : g.inNew = true := by
        cases gone : g.inNew with
        | true => rfl
        | false =>
            rw [target_gone gone] at read
            cases read
      have own : g.path.text ∈ names :=
        (exact_ _).mpr ⟨⟨g, known, rfl⟩, by rw [isSome_after known, standing]⟩
      rw [mem_changed collected ran, mem_headed plain] at own
      obtain ⟨k, -, -, named⟩ := own
      rw [target_label standing (closed_target named)] at read
      cases same_file known member (Option.some.inj read)
      exact ⟨shown, closed_target named⟩
    exact fun f member =>
      { plain := plain f member
        shown := fun present => (stands f member present).1
        closed := fun present => (stands f member present).2
        small := small_of_parsed parsed f member }
  · intro legible
    have plain : ∀ f ∈ d.files, ∀ b ∈ f.blocks, ∀ l, .added l ∈ b.body → Plain l.text :=
      fun f member => (legible f member).plain
    constructor
    · obtain ⟨r, ran, found⟩ := read_files (u := u) legible ⟨[], 0, []⟩
      have whole : (d.files.flatMap FileDiff.lines ++ [[]]).foldlM (readLine u) ⟨[], 0, []⟩ = .ok r := by
        rw [List.foldlM_append]
        exact bind_ok.mpr ⟨r, ran, rfl⟩
      rw [parseDiff, d.split_print, whole, ok_bind, found]
      rfl
    · intro runGit staged unstaged gitRange collected
      have ran : ∃ names, getChangedFiles u runGit staged unstaged gitRange = .ok names := by
        rw [getChangedFiles, collected]
        exact ⟨_, rfl⟩
      obtain ⟨names, ran⟩ := ran
      refine ⟨names, ran, fun path => ?_⟩
      rw [mem_changed collected ran, mem_headed plain]
      constructor
      · rintro ⟨f, member, shown, read⟩
        cases present : f.inNew with
        | false =>
            rw [target_gone present] at read
            cases read
        | true =>
            rw [target_label present ((legible f member).closed present)] at read
            cases read
            exact ⟨⟨f, member, rfl⟩, by rw [isSome_after member, present]⟩
      · rintro ⟨⟨f, member, rfl⟩, present⟩
        rw [isSome_after member] at present
        exact ⟨f, member, (legible f member).shown present,
          target_label present ((legible f member).closed present)⟩

end

def increment : Line := ⟨"++ b/other", by decide⟩

def second : Line := ⟨"y", by decide⟩

def notes : Line := ⟨"notes", by decide⟩

theorem notes_named : notes.text ≠ [] := by decide

/-- A new file of two lines, of which the first one looks like a label once it is added. -/
def newFile : FileDiff where
  path := notes
  preface := []
  blocks := [⟨[], ⟨[], List.not_mem_nil⟩, [.added increment, .added second]⟩]
  rest := []
  inOld := false
  inNew := true
  named := notes_named
  quiet := fun _ inside => absurd inside List.not_mem_nil
  created := fun _ => rfl
  deleted := fun gone => nomatch gone

def empty : Tree := fun _ => none

def oneFile : Tree := fun path => if path = "notes" then newFile.new? else none

def creation : TreeDiff empty oneFile where
  files := [newFile]
  distinct := by simp
  old := fun f inside => by rw [List.mem_singleton.mp inside]; rfl
  new := fun f inside => by rw [List.mem_singleton.mp inside]; rfl
  others := fun path apart => by
    have other : path ≠ "notes" := fun same => apart newFile List.mem_cons_self same.symm
    rw [oneFile, if_neg other]
    rfl

def asciiTable : Unicode where
  decimal _ := none
  isDigit c := 48 ≤ c.val && c.val ≤ 57
  lower s := s.map Unicode.asciiLower

/-- The first line is dropped, and the second one is given to another file. -/
theorem incremented_line_lost : ¬ Recovered asciiTable creation := by
  rintro ⟨parsed, -⟩
  have plain := plain_of_parsed parsed newFile List.mem_cons_self _ List.mem_cons_self increment
    List.mem_cons_self
  exact plain ⟨" b/other", rfl⟩

end DevGate.Gate.Diff
