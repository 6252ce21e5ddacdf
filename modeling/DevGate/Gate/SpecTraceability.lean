import DevGate.Py.Lossy
import DevGate.Py.ReScan
import DevGate.Coherence.Evaluators

set_option autoImplicit false

/- scripts/spec_traceability.py, collect_markers, beside the marker scan of the
coherence evaluators: the same grammar over differently decoded texts. -/
namespace DevGate.Gate.Traceability

open Py Evaluators

def idRe : Re := .plus true (.oneOf "abcdefghijklmnopqrstuvwxyz0123456789-".toList)

/-- `MARKER`. -/
def marker : Re :=
  .seq (.alt (.word "//".toList) (.char '#')) <| .seq (.star true .space) <|
  .seq (.word "spec:".toList) <| .seq (.star true (.oneOf [' ', '\t'])) <|
  .group (.seq idRe (.star true
    (.seq (.star true (.oneOf [' ', '\t'])) <| .seq (.char ',') <|
      .seq (.star true (.oneOf [' ', '\t'])) idRe)))

/-- `SCAN_EXTS`. -/
def scanExts : List Str := [".rs", ".py", ".mjs", ".js", ".ts", ".sh", ".zig"]

/-- `SCAN_SKIP`. -/
def scanSkip : List Str := ["target", "node_modules", ".git", "openspec", ".devgate"]

/-- One path of `root.rglob("*")`; no bytes where reading it raises OSError. -/
structure SourceFile where
  parts : List Str
  isFile : Bool
  bytes : Option Bytes

/-- The body of the loop, over the texts `read` makes of bytes. -/
def fileMarkers (read : Bytes → Str) (file : SourceFile) : List Str :=
  if file.isFile = false ∨ suffix (file.parts.getLastD []) ∉ scanExts then []
  else if file.parts.any (fun part => part ∈ scanSkip) then []
  else match file.bytes with
    | some bytes => (marker.findall (read bytes)).flatMap idRe.findall
    | none => []

/-- `collect_markers`. -/
def collectMarkers (files : List SourceFile) : List Str :=
  files.flatMap (fileMarkers Utf8.readIgnore)

/-- The file as the evaluator reads it. -/
def SourceFile.entry (file : SourceFile) : TreeEntry where
  parts := file.parts
  isFile := file.isFile
  text := match file.bytes with
    | some bytes => .ok (Utf8.readReplace bytes)
    | none => .error ⟨.osError, []⟩

/-- The files under a subject root. -/
def subjectTree (root : Str) (text : Str → Except Exc (Option Str)) (files : List SourceFile) :
    SubjectTree := ⟨root, true, text, files.map SourceFile.entry⟩

/-- A file both scans read, and its bytes. -/
def Scanned (files : List SourceFile) (bytes : Bytes) : Prop :=
  ∃ file ∈ files, file.isFile = true ∧ suffix (file.parts.getLastD []) ∈ scanExts ∧
    (∀ part ∈ file.parts, part ∉ scanSkip) ∧ file.bytes = some bytes

/-- The text at a position, up to the next ill-formed bytes, and what follows them. -/
structure Position where
  text : Str
  beyond : Str

/-- The positions of a text in stretches. -/
def positions : List Str → List Position
  | [] => []
  | run :: rest => run.tails.map (fun text => ⟨text, rest.flatten⟩) ++ positions rest

/-- A marker at the head of `s` names `rid`. -/
def Names (s rid : Str) : Prop := ∃ group, Re.hitAt marker s = some group ∧ rid ∈ idRe.findall group

/-- The marker at a position names `rid` when the ill-formed bytes are dropped. -/
def Position.Across (p : Position) (rid : Str) : Prop := Names (p.text ++ p.beyond) rid

/-- It names `rid` when it is read up to them. -/
def Position.UpTo (p : Position) (rid : Str) : Prop := Names p.text rid

def At (files : List SourceFile) (p : Position) : Prop :=
  ∃ bytes, Scanned files bytes ∧ p ∈ positions (Utf8.carried false (Utf8.runs bytes))

/-- A marker names `rid` in either reading. -/
def Whole (files : List SourceFile) (rid : Str) : Prop :=
  ∃ p, At files p ∧ p.Across rid ∧ p.UpTo rid

/-- One names it only across ill-formed bytes. -/
def OnlyAcross (files : List SourceFile) (rid : Str) : Prop :=
  ∃ p, At files p ∧ p.Across rid ∧ ¬p.UpTo rid

/-- One names it only up to ill-formed bytes. -/
def OnlyUpTo (files : List SourceFile) (rid : Str) : Prop :=
  ∃ p, At files p ∧ p.UpTo rid ∧ ¬p.Across rid

theorem marker_eq : marker = markerRe := rfl

theorem idRe_eq : idRe = markerIdRe := rfl

theorem mem_fileMarkers {read : Bytes → Str} {file : SourceFile} {rid : Str} :
    rid ∈ fileMarkers read file ↔ file.isFile = true ∧ suffix (file.parts.getLastD []) ∈ scanExts ∧
      (∀ part ∈ file.parts, part ∉ scanSkip) ∧ ∃ bytes, file.bytes = some bytes ∧
        rid ∈ (marker.findall (read bytes)).flatMap idRe.findall := by
  unfold fileMarkers
  by_cases plain : file.isFile = false ∨ suffix (file.parts.getLastD []) ∉ scanExts
  · rw [if_pos plain]
    constructor
    · intro member
      cases member
    · rintro ⟨isFile, ext, -⟩
      rcases plain with notFile | other
      · rw [isFile] at notFile
        cases notFile
      · exact absurd ext other
  · rw [if_neg plain]
    rw [not_or, Bool.not_eq_false, not_not] at plain
    by_cases skipped : file.parts.any (fun part => part ∈ scanSkip) = true
    · rw [if_pos skipped]
      obtain ⟨part, member, listed⟩ := List.any_eq_true.mp skipped
      constructor
      · intro member
        cases member
      · rintro ⟨-, -, clear, -⟩
        exact absurd (of_decide_eq_true listed) (clear part member)
    · rw [if_neg skipped]
      have clear : ∀ part ∈ file.parts, part ∉ scanSkip := by
        intro part member listed
        exact skipped (List.any_eq_true.mpr ⟨part, member, decide_eq_true listed⟩)
      cases file.bytes with
      | none => simp
      | some bytes =>
          constructor
          · intro member
            exact ⟨plain.1, plain.2, clear, bytes, rfl, member⟩
          · rintro ⟨-, -, -, _, ⟨⟩, member⟩
            exact member

/-- A scan collects the ids of the files it reads. -/
theorem mem_scan {read : Bytes → Str} {files : List SourceFile} {rid : Str} :
    rid ∈ files.flatMap (fileMarkers read) ↔ ∃ bytes, Scanned files bytes ∧
      rid ∈ (marker.findall (read bytes)).flatMap idRe.findall := by
  rw [List.mem_flatMap]
  constructor
  · rintro ⟨file, member, named⟩
    obtain ⟨isFile, ext, clear, bytes, held, here⟩ := mem_fileMarkers.mp named
    exact ⟨bytes, ⟨file, member, isFile, ext, clear, held⟩, here⟩
  · rintro ⟨bytes, ⟨file, member, isFile, ext, clear, held⟩, here⟩
    exact ⟨file, member, mem_fileMarkers.mpr ⟨isFile, ext, clear, bytes, held, here⟩⟩

theorem entryMarkers_entry (file : SourceFile) :
    entryMarkers file.entry = .ok (fileMarkers Utf8.readReplace file) := by
  unfold entryMarkers fileMarkers
  show (if file.isFile = false ∨ suffix (file.parts.getLastD []) ∉ scanExts then _ else
    if file.parts.any (fun part => part ∈ scanSkip) then _ else _) = _
  split
  · rfl
  · split
    · rfl
    · unfold SourceFile.entry
      cases file.bytes <;> rfl

theorem sourceMarkers_eq (root : Str) (text : Str → Except Exc (Option Str))
    (files : List SourceFile) :
    sourceMarkers (subjectTree root text files) =
      .ok (files.flatMap (fileMarkers Utf8.readReplace)) := by
  have mapped : (files.map SourceFile.entry).mapM entryMarkers =
      .ok (files.map (fileMarkers Utf8.readReplace)) := by
    induction files with
    | nil => rfl
    | cons file rest ih =>
        rw [List.map_cons, List.mapM_cons, entryMarkers_entry, ok_bind, ih]
        rfl
  show (do return (← (files.map SourceFile.entry).mapM entryMarkers).flatten) = _
  rw [mapped, List.flatMap_def]
  rfl

theorem marker_avoids : marker.Avoids Utf8.replacement := by decide

/-- Neither a slash nor a hash. -/
def inner (c : Chr) : Bool := c != Chr.ofChar '/' && c != Chr.ofChar '#'

/-- The classes behind the keyword. -/
theorem tail_within : (Re.seq (.star true (.oneOf [' ', '\t'])) (.group (.seq idRe (.star true
    (.seq (.star true (.oneOf [' ', '\t'])) <| .seq (.char ',') <|
      .seq (.star true (.oneOf [' ', '\t'])) idRe))))).Within inner := by
  have blank : (Re.oneOf [' ', '\t']).Within inner := Re.within_oneOf (by decide)
  have id : (Re.oneOf "abcdefghijklmnopqrstuvwxyz0123456789-".toList).Within inner :=
    Re.within_oneOf (by decide)
  have comma : (Re.char ',').Within inner := by
    intro c same
    rw [beq_iff_eq.mp same]
    decide
  exact ⟨blank, ⟨id, id⟩, blank, comma, blank, id, id⟩

/-- A marker starts with its prefix, and holds no other. -/
theorem marker_shape {s : Str} {c : Re.Cursor}
    (went : Re.exec marker ⟨none, s, none⟩ some = some c) :
    ∃ body : Str, body ≠ [] ∧ (∀ d ∈ body, inner d = true) ∧
      (s = "//" ++ (body ++ c.rest) ∨ s = "#" ++ (body ++ c.rest)) := by
  have behind : ∀ (start : Re.Cursor),
      Re.exec (.seq (.star true .space) <| .seq (.word "spec:".toList) <|
        .seq (.star true (.oneOf [' ', '\t'])) <|
        .group (.seq idRe (.star true (.seq (.star true (.oneOf [' ', '\t'])) <|
          .seq (.char ',') <| .seq (.star true (.oneOf [' ', '\t'])) idRe)))) start some = some c →
        ∃ body : Str, body ≠ [] ∧ (∀ d ∈ body, inner d = true) ∧ start.rest = body ++ c.rest := by
    intro start ran
    have spaces : (Re.star true .space).Within (fun d => Re.isSpace d) := fun d same => same
    obtain ⟨first, ⟨gap, shape, blank⟩, ran⟩ := Re.exec_sound _ spaces _ _ _ ran
    obtain ⟨second, keyword, ran⟩ := Re.exec_word_some ran
    obtain ⟨last, ⟨ids, shape', clear⟩, stop⟩ := Re.exec_sound _ tail_within _ _ _ ran
    cases stop
    refine ⟨gap ++ ("spec:".toList.map Chr.ofChar ++ ids), by simp, ?_, ?_⟩
    · intro d member
      rcases List.mem_append.mp member with space | member
      · have isSpace := blank d space
        unfold inner
        rw [Bool.and_eq_true, bne_iff_ne, bne_iff_ne]
        constructor <;>
        · rintro rfl
          exact absurd isSpace (by decide)
      · rcases List.mem_append.mp member with letter | member
        · have all : ("spec:".toList.map Chr.ofChar).all inner = true := by decide
          exact List.all_eq_true.mp all d letter
        · exact clear d member
    · rw [shape, keyword, shape', List.append_assoc, List.append_assoc]
  rcases Re.orElse_some went with slashes | hash
  · obtain ⟨start, shape, ran⟩ := Re.exec_word_some slashes
    obtain ⟨body, some_, clear, rest⟩ := behind start ran
    exact ⟨body, some_, clear, .inl (by rw [← rest]; exact shape)⟩
  · unfold Re.char Re.exec at hash
    cases s with
    | nil => cases hash
    | cons d t =>
        dsimp only at hash
        split at hash
        · rename_i same
          obtain ⟨body, some_, clear, rest⟩ := behind _ hash
          refine ⟨body, some_, clear, .inr ?_⟩
          rw [← rest, beq_iff_eq.mp same]
          rfl
        · cases hash

theorem hitAt_none {s : Str} (slashes : ∀ t, s ≠ "//" ++ t) (hash : ∀ t, s ≠ "#" ++ t) :
    Re.hitAt marker s = none := by
  unfold Re.hitAt
  cases ran : Re.exec marker ⟨none, s, none⟩ some with
  | none => rfl
  | some c =>
      obtain ⟨body, -, -, first | second⟩ := marker_shape ran
      · exact absurd first (slashes _)
      · exact absurd second (hash _)

/-- No marker starts at a character that starts none. -/
theorem hitAt_inner {c : Chr} (other : inner c = true) (t : Str) :
    Re.hitAt marker (c :: t) = none := by
  unfold inner at other
  rw [Bool.and_eq_true, bne_iff_ne, bne_iff_ne] at other
  apply hitAt_none
  · intro rest same
    exact other.1 (List.cons.inj same).1
  · intro rest same
    exact other.2 (List.cons.inj same).1

theorem marker_sparse : Re.Sparse marker := by
  intro s c went
  obtain ⟨body, some_, clear, shape⟩ := marker_shape went
  obtain ⟨first, more, rfl⟩ := List.exists_cons_of_ne_nil some_
  have inside : ∀ u, u <:+ first :: more → u ≠ [] → Re.hitAt marker (u ++ c.rest) = none := by
    intro u tail filled
    obtain ⟨d, later, rfl⟩ := List.exists_cons_of_ne_nil filled
    exact hitAt_inner (clear d (tail.subset List.mem_cons_self)) _
  rcases shape with slashes | hash
  · refine ⟨"//" ++ first :: more, by rw [slashes, List.append_assoc], by simp, ?_⟩
    intro v u split before filled
    obtain ⟨d, v, rfl⟩ := List.exists_cons_of_ne_nil before
    have tails : Str.ofString "/" ++ first :: more = v ++ u := (List.cons.inj split).2
    cases v with
    | nil =>
        rw [List.nil_append] at tails
        rw [← tails]
        apply hitAt_none
        · intro t same
          have second := (List.cons.inj (List.cons.inj same).2).1
          have other := clear first List.mem_cons_self
          rw [second] at other
          exact absurd other (by decide)
        · intro t same
          exact absurd (List.cons.inj same).1 (by decide)
    | cons e v => exact inside u ⟨v, ((List.cons.inj tails).2).symm⟩ filled
  · refine ⟨"#" ++ first :: more, by rw [hash, List.append_assoc], by simp, ?_⟩
    intro v u split before filled
    obtain ⟨d, v, rfl⟩ := List.exists_cons_of_ne_nil before
    exact inside u ⟨v, ((List.cons.inj split).2).symm⟩ filled

/-- The ids a text is marked with are those its markers name, wherever they start. -/
theorem mem_markers {text rid : Str} :
    rid ∈ (marker.findall text).flatMap idRe.findall ↔ ∃ u, u <:+ text ∧ Names u rid := by
  rw [List.mem_flatMap]
  constructor
  · rintro ⟨group, member, named⟩
    obtain ⟨u, tail, hit⟩ := (Re.mem_findall marker_avoids marker_sparse).mp member
    exact ⟨u, tail, group, hit, named⟩
  · rintro ⟨u, tail, group, hit, named⟩
    exact ⟨group, (Re.mem_findall marker_avoids marker_sparse).mpr ⟨u, tail, hit⟩, named⟩

theorem not_names_nil (rid : Str) : ¬Names [] rid := by
  rintro ⟨group, hit, -⟩
  rw [hitAt_none (fun _ same => by cases same) (fun _ same => by cases same)] at hit
  cases hit

theorem not_names_inner {c : Chr} (other : inner c = true) (t rid : Str) : ¬Names (c :: t) rid := by
  rintro ⟨group, hit, -⟩
  rw [hitAt_inner other] at hit
  cases hit

theorem names_replacement (u t rid : Str) : Names (u ++ Utf8.replacement :: t) rid ↔ Names u rid := by
  unfold Names
  rw [Re.hitAt_append marker_avoids (x := Utf8.replacement) (by
    intro d here
    exact (Option.some.inj here).symm) u]

/-- With the ill-formed bytes replaced, a stretch is marked by itself. -/
theorem names_join (ws : List Str) (rid : Str) :
    (∃ u, u <:+ Str.join [Utf8.replacement] ws ∧ Names u rid) ↔
      ∃ w ∈ ws, ∃ u, u <:+ w ∧ Names u rid := by
  induction ws with
  | nil =>
      constructor
      · rintro ⟨u, tail, named⟩
        rw [List.suffix_nil.mp tail] at named
        exact absurd named (not_names_nil rid)
      · rintro ⟨w, member, -⟩
        cases member
  | cons w rest ih =>
      rw [List.exists_mem_cons_iff]
      by_cases last : rest = []
      · subst last
        simp [Str.join]
      · rw [← ih, Str.join_cons _ _ _ last, List.append_assoc]
        constructor
        · rintro ⟨u, tail, named⟩
          rcases Re.suffix_append_cases tail with later | ⟨v, y, rfl, -, rfl⟩
          · rcases List.suffix_cons_iff.mp later with rfl | later
            · have alone := (names_replacement [] (Str.join [Utf8.replacement] rest) rid).mp named
              exact absurd alone (not_names_nil rid)
            · exact .inr ⟨u, later, named⟩
          · exact .inl ⟨y, List.suffix_append v y, (names_replacement y _ rid).mp named⟩
        · rintro (⟨u, ⟨v, rfl⟩, named⟩ | ⟨u, tail, named⟩)
          · refine ⟨u ++ Utf8.replacement :: Str.join [Utf8.replacement] rest, ⟨v, ?_⟩,
              (names_replacement u _ rid).mpr named⟩
            rw [List.append_assoc]
            rfl
          · exact ⟨u, tail.trans (List.suffix_append _ _ |>.trans (List.suffix_append w _)), named⟩

/-- With them dropped, a marker may go on behind them. -/
theorem names_flatten (vs : List Str) (rid : Str) :
    (∃ u, u <:+ vs.flatten ∧ Names u rid) ↔ ∃ p ∈ positions vs, p.Across rid := by
  induction vs with
  | nil =>
      constructor
      · rintro ⟨u, tail, named⟩
        rw [List.suffix_nil.mp tail] at named
        exact absurd named (not_names_nil rid)
      · rintro ⟨p, member, -⟩
        cases member
  | cons v rest ih =>
      unfold positions
      constructor
      · rintro ⟨u, tail, named⟩
        rw [List.flatten_cons] at tail
        rcases Re.suffix_append_cases tail with later | ⟨front, y, rfl, -, rfl⟩
        · obtain ⟨p, member, across⟩ := ih.mp ⟨u, later, named⟩
          exact ⟨p, List.mem_append_right _ member, across⟩
        · refine ⟨⟨y, rest.flatten⟩, List.mem_append_left _ (List.mem_map.mpr ⟨y, ?_, rfl⟩), named⟩
          exact (List.mem_tails _ _).mpr (List.suffix_append front y)
      · rintro ⟨p, member, across⟩
        rw [List.flatten_cons]
        rcases List.mem_append.mp member with here | later
        · obtain ⟨y, tail, rfl⟩ := List.mem_map.mp here
          obtain ⟨front, rfl⟩ := (List.mem_tails _ _).mp tail
          exact ⟨y ++ rest.flatten, ⟨front, by rw [List.append_assoc]⟩, across⟩
        · obtain ⟨u, tail, named⟩ := ih.mpr ⟨p, later, across⟩
          exact ⟨u, tail.trans (List.suffix_append v _), named⟩

/-- A newline that joins the two halves of a line break adds no marker. -/
theorem names_newlines (before : Bool) (run rid : Str) :
    (∃ u, u <:+ Utf8.newlines false run ∧ Names u rid) ↔
      ∃ u, u <:+ Utf8.newlines before run ∧ Names u rid := by
  cases before with
  | false => exact Iff.rfl
  | true =>
      rcases Utf8.newlines_true run with same | feed
      · rw [same]
      · rw [feed]
        constructor
        · rintro ⟨u, tail, named⟩
          rcases List.suffix_cons_iff.mp tail with rfl | later
          · exact absurd named (not_names_inner (by decide) _ rid)
          · exact ⟨u, later, named⟩
        · rintro ⟨u, tail, named⟩
          exact ⟨u, tail.trans (List.suffix_cons _ _), named⟩

theorem names_runs (before : Bool) (rs : List Str) (rid : Str) :
    (∃ w ∈ rs.map (Utf8.newlines false), ∃ u, u <:+ w ∧ Names u rid) ↔
      ∃ p ∈ positions (Utf8.carried before rs), p.UpTo rid := by
  induction rs generalizing before with
  | nil =>
      constructor
      · rintro ⟨w, member, -⟩
        cases member
      · rintro ⟨p, member, -⟩
        cases member
  | cons run rest ih =>
      rw [List.map_cons, List.exists_mem_cons_iff, names_newlines before,
        ih (Utf8.afterReturn before run)]
      show _ ↔ ∃ p ∈ (Utf8.newlines before run).tails.map (fun text => (⟨text,
        (Utf8.carried (Utf8.afterReturn before run) rest).flatten⟩ : Position)) ++
          positions (Utf8.carried (Utf8.afterReturn before run) rest), p.UpTo rid
      constructor
      · rintro (⟨u, tail, named⟩ | ⟨p, member, upTo⟩)
        · exact ⟨⟨u, _⟩, List.mem_append_left _
            (List.mem_map.mpr ⟨u, (List.mem_tails _ _).mpr tail, rfl⟩), named⟩
        · exact ⟨p, List.mem_append_right _ member, upTo⟩
      · rintro ⟨p, member, upTo⟩
        rcases List.mem_append.mp member with here | later
        · obtain ⟨u, tail, rfl⟩ := List.mem_map.mp here
          exact .inl ⟨u, (List.mem_tails _ _).mp tail, upTo⟩
        · exact .inr ⟨p, later, upTo⟩

theorem mem_collectMarkers {files : List SourceFile} {rid : Str} :
    rid ∈ collectMarkers files ↔ Whole files rid ∨ OnlyAcross files rid := by
  have across : rid ∈ collectMarkers files ↔ ∃ p, At files p ∧ p.Across rid := by
    unfold collectMarkers
    rw [mem_scan]
    unfold Utf8.readIgnore At
    constructor
    · rintro ⟨bytes, scanned, named⟩
      rw [mem_markers, Utf8.newlines_flatten, names_flatten] at named
      obtain ⟨p, member, across⟩ := named
      exact ⟨p, ⟨bytes, scanned, member⟩, across⟩
    · rintro ⟨p, ⟨bytes, scanned, member⟩, across⟩
      refine ⟨bytes, scanned, ?_⟩
      rw [mem_markers, Utf8.newlines_flatten, names_flatten]
      exact ⟨p, member, across⟩
  rw [across]
  constructor
  · rintro ⟨p, here, across⟩
    by_cases upTo : p.UpTo rid
    · exact .inl ⟨p, here, across, upTo⟩
    · exact .inr ⟨p, here, across, upTo⟩
  · rintro (⟨p, here, across, -⟩ | ⟨p, here, across, -⟩) <;> exact ⟨p, here, across⟩

theorem mem_sourceMarkers {files : List SourceFile} {rid : Str} :
    rid ∈ files.flatMap (fileMarkers Utf8.readReplace) ↔ Whole files rid ∨ OnlyUpTo files rid := by
  have upTo : rid ∈ files.flatMap (fileMarkers Utf8.readReplace) ↔ ∃ p, At files p ∧ p.UpTo rid := by
    rw [mem_scan]
    unfold Utf8.readReplace At
    constructor
    · rintro ⟨bytes, scanned, named⟩
      rw [mem_markers, Utf8.newlines_join, names_join, names_runs false] at named
      obtain ⟨p, member, upTo⟩ := named
      exact ⟨p, ⟨bytes, scanned, member⟩, upTo⟩
    · rintro ⟨p, ⟨bytes, scanned, member⟩, upTo⟩
      refine ⟨bytes, scanned, ?_⟩
      rw [mem_markers, Utf8.newlines_join, names_join, names_runs false]
      exact ⟨p, member, upTo⟩
  rw [upTo]
  constructor
  · rintro ⟨p, here, upTo⟩
    by_cases across : p.Across rid
    · exact .inl ⟨p, here, across, upTo⟩
    · exact .inr ⟨p, here, upTo, across⟩
  · rintro (⟨p, here, -, upTo⟩ | ⟨p, here, upTo, -⟩) <;> exact ⟨p, here, upTo⟩

/-- The two scans find the same ids exactly when the markers that ill-formed bytes
cut name, in the one reading and in the other, the same ids beside the uncut ones. -/
theorem markers_agree_iff (root : Str) (text : Str → Except Exc (Option Str))
    (files : List SourceFile) :
    ∃ marked, sourceMarkers (subjectTree root text files) = .ok marked ∧
      ((∀ rid, rid ∈ collectMarkers files ↔ rid ∈ marked) ↔
        ∀ rid, ¬Whole files rid → (OnlyAcross files rid ↔ OnlyUpTo files rid)) := by
  refine ⟨_, sourceMarkers_eq root text files, ?_⟩
  simp only [mem_collectMarkers, mem_sourceMarkers]
  constructor
  · intro agree rid cut
    have here := agree rid
    simpa only [cut, false_or] using here
  · intro same rid
    by_cases whole : Whole files rid
    · simp only [whole, true_or]
    · rw [same rid whole]

/-- No marker is cut in files that are well-formed UTF-8. -/
theorem not_cut_of_valid {files : List SourceFile}
    (valid : ∀ bytes, Scanned files bytes → ∃ s, Utf8.decode false bytes = .ok s) (rid : Str) :
    OnlyAcross files rid ↔ OnlyUpTo files rid := by
  have whole : ∀ p, At files p → (p.Across rid ↔ p.UpTo rid) := by
    rintro p ⟨bytes, scanned, member⟩
    obtain ⟨s, decoded⟩ := valid bytes scanned
    unfold Utf8.runs at member
    rw [Utf8.runsFrom_of_decodeFrom bytes none s decoded] at member
    simp only [Utf8.carried, positions, List.flatten_nil, List.append_nil, List.mem_map] at member
    obtain ⟨u, -, rfl⟩ := member
    unfold Position.Across Position.UpTo
    rw [List.append_nil]
  constructor
  · rintro ⟨p, here, across, short⟩
    exact absurd ((whole p here).mp across) short
  · rintro ⟨p, here, upTo, long⟩
    exact absurd ((whole p here).mpr upTo) long

/-- `# spec: a`, a stray byte, `b`. -/
def strayByte : SourceFile :=
  ⟨["x.py"], true, some (Utf8.ascii "# spec: a" ++ 0xff :: Utf8.ascii "b")⟩

theorem strayByte_disagrees :
    ¬∃ marked, sourceMarkers (subjectTree "" (fun _ => .ok none) [strayByte]) = .ok marked ∧
      ∀ rid, rid ∈ collectMarkers [strayByte] ↔ rid ∈ marked := by
  rintro ⟨marked, ran, agree⟩
  rw [sourceMarkers_eq, Except.ok.injEq] at ran
  have dropped : ("ab" : Str) ∈ collectMarkers [strayByte] := by decide
  have replaced : ("ab" : Str) ∉ [strayByte].flatMap (fileMarkers Utf8.readReplace) := by decide
  rw [ran, ← agree] at replaced
  exact replaced dropped

end DevGate.Gate.Traceability
