import DevGate.Coherence.Policy

set_option autoImplicit false

/- Which pinned bundles a central binding authorizes, and which of them the check
accepts. -/
namespace DevGate.Policy

open Py

/-- A grandfather window: the bundle it covers, and the moment it ends at. -/
structure Window where
  bundleDigest : Str
  ends : Datetime
  aware : ends.offset.isSome = true

/-- The record says what the window is. -/
def Window.Describes (w : Window) (g : Value) : Prop :=
  ∃ until_, g.field? "bundle_digest" = some (.str w.bundleDigest) ∧
    g.field? "valid_until" = some (.str until_) ∧ Adoption.parse until_ = .ok w.ends

/-- A binding of a digest, a floor and windows. -/
structure Binds (binding : Dict Str Value) (expected : Str) (floor : Int) (ws : List Window) :
    Prop where
  digest : Dict.get? binding "expected_digest" = some (.str expected)
  filled : expected ≠ []
  epoch : (Dict.get? binding "min_bundle_epoch").getD (.int 0) = .int floor
  bounded : 0 ≤ floor
  recorded : ∃ records, listOr (Dict.get? binding "grandfathers") = .ok records ∧
    List.Forall₂ Window.Describes ws records

/-- The window covers the bundle at that time. -/
def Window.Covers (w : Window) (digest : Str) (now : Datetime) : Prop :=
  w.bundleDigest = digest ∧ now.instant < w.ends.instant

/-- The bundle declares a non-negative epoch at or above the floor. -/
def EpochHolds (bundle : Dict Str Value) (floor : Int) : Prop :=
  ∃ epoch, Dict.get? bundle "bundle_epoch" = some (.int epoch) ∧ 0 ≤ epoch ∧ floor ≤ epoch

/-- What the central policy authorizes: its own bundle at its epoch, and every bundle with
an open window. -/
def Authorized (digest expected : Str) (bundle : Dict Str Value) (floor : Int) (ws : List Window)
    (now : Datetime) : Prop :=
  (digest = expected ∧ EpochHolds bundle floor) ∨ ∃ w ∈ ws, w.Covers digest now

theorem listOr_list (vs : List Value) : listOr (some (.list vs)) = .ok vs := by
  cases vs <;> rfl

/-- A grandfather record of the frozen contract describes a window. -/
theorem describes_of_accepts {g : Value}
    (accepted : Schemacheck.Accepts Schemacheck.grandfather g) : ∃ w : Window, w.Describes g := by
  obtain ⟨kvs, rfl⟩ := accepted.isObject rfl
  obtain ⟨v, covered, innerDigest⟩ := accepted.field "bundle_digest" (by decide) rfl
  obtain ⟨bundleDigest, rfl⟩ := Schemacheck.isType_string (innerDigest.type rfl)
  obtain ⟨v, stated, innerTime⟩ := accepted.field "valid_until" (by decide) rfl
  obtain ⟨until_, rfl⟩ := Schemacheck.isType_string (innerTime.type rfl)
  obtain ⟨ends, parsed, aware, -⟩ := parse_dateTime innerTime
  exact ⟨⟨bundleDigest, ends, aware⟩, until_, covered, stated, parsed⟩

/-- A binding of the frozen contract binds a digest, a floor and windows. -/
theorem binds_of_accepts {binding : Dict Str Value}
    (accepted : Schemacheck.Accepts Schemacheck.policyBinding (.dict binding)) :
    ∃ expected floor ws, Binds binding expected floor ws := by
  obtain ⟨v, digest, innerDigest⟩ := accepted.field "expected_digest" (by decide) rfl
  obtain ⟨expected, rfl⟩ := Schemacheck.isType_string (innerDigest.type rfl)
  have filled : expected ≠ [] := by
    rintro rfl
    exact absurd (innerDigest.pattern rfl) (by decide)
  obtain ⟨v, epoch, innerEpoch⟩ := accepted.field "min_bundle_epoch" (by decide) rfl
  obtain ⟨floor, rfl⟩ := Schemacheck.isType_integer (innerEpoch.type rfl)
  obtain ⟨v, listed, innerList⟩ := accepted.field "grandfathers" (by decide) rfl
  obtain ⟨records, rfl⟩ := Schemacheck.isType_array (innerList.type rfl)
  have each := innerList.items rfl
  have described : ∃ ws, List.Forall₂ Window.Describes ws records := by
    clear listed innerList
    induction records with
    | nil => exact ⟨[], .nil⟩
    | cons g rest ih =>
        obtain ⟨w, told⟩ := describes_of_accepts (each g List.mem_cons_self)
        obtain ⟨ws, later⟩ := ih (fun g inside => each g (List.mem_cons_of_mem _ inside))
        exact ⟨w :: ws, .cons told later⟩
  obtain ⟨ws, described⟩ := described
  refine ⟨expected, floor, ws, digest, filled, ?_, innerEpoch.minimum rfl, records, ?_, described⟩
  · rw [epoch, Option.getD_some]
  · rw [listed, listOr_list]

theorem Window.Describes.validUntil {w : Window} {g : Value} (told : w.Describes g) :
    ∃ until_, validUntil g = some until_ ∧ Adoption.parse until_ = .ok w.ends := by
  obtain ⟨until_, -, ends, parsed⟩ := told
  exact ⟨until_, by rw [Policy.validUntil, ends]; rfl, parsed⟩

/-- The ends the code collects are those of the windows for the digest, in their order. -/
theorem windows_described (digest : Str) {ws : List Window} {records : List Value}
    (described : List.Forall₂ Window.Describes ws records) :
    ∃ ends, windows digest records = .ok ends ∧
      List.Forall₂ (fun w until_ => Adoption.parse until_ = .ok w.ends)
        (ws.filter (fun w => w.bundleDigest = digest)) ends := by
  induction described with
  | nil => exact ⟨[], rfl, .nil⟩
  | @cons w g ws records told _ ih =>
      obtain ⟨later, collected, parsed⟩ := ih
      obtain ⟨until_, ends, read⟩ := told.validUntil
      obtain ⟨_, covered, -, -⟩ := told
      have same : ((g.field? "bundle_digest").getD .null).eq (.str digest) =
          decide (w.bundleDigest = digest) := by
        rw [covered, Option.getD_some, Bool.eq_iff_iff, Value.eq_text, decide_eq_true_iff,
          Value.str.injEq]
      rw [windows, ends]
      dsimp only
      rw [collected, ok_bind, same, List.filter_cons]
      by_cases mine : w.bundleDigest = digest
      · rw [decide_eq_true mine, if_pos rfl, if_pos rfl]
        exact ⟨_, rfl, .cons read parsed⟩
      · rw [decide_eq_false mine, if_neg Bool.false_ne_true, if_neg Bool.false_ne_true]
        exact ⟨_, rfl, parsed⟩

theorem isOpen_ok {now : Datetime} (aware : now.offset.isSome = true) {w : Window} {until_ : Str}
    (parsed : Adoption.parse until_ = .ok w.ends) :
    isOpen now until_ = .ok (decide (now.instant < w.ends.instant)) := by
  have compared : w.ends.le now = .ok (decide (w.ends.instant ≤ now.instant)) :=
    Datetime.le_ok.mpr ⟨by rw [w.aware, aware], rfl⟩
  rw [isOpen, parsed, ok_bind, compared, ok_bind, pure_ok, ← decide_not]
  simp only [not_le]

theorem mapM_isOpen {now : Datetime} (aware : now.offset.isSome = true) {ws : List Window}
    {ends : List Str}
    (parsed : List.Forall₂ (fun w until_ => Adoption.parse until_ = .ok w.ends) ws ends) :
    ends.mapM (isOpen now) = .ok (ws.map (fun w => decide (now.instant < w.ends.instant))) := by
  induction parsed with
  | nil => rfl
  | cons read _ ih => rw [List.mapM_cons, isOpen_ok aware read, ok_bind, ih, ok_bind]; rfl

/-- A bundle that is not the bound one is held to its windows. -/
theorem checkWindows_iff {digest expected time : Str} {now : Datetime}
    (read : Adoption.parse time = .ok now) (aware : now.offset.isSome = true) {ws : List Window}
    {ends : List Str}
    (parsed : List.Forall₂ (fun w until_ => Adoption.parse until_ = .ok w.ends)
      (ws.filter (fun w => w.bundleDigest = digest)) ends) :
    checkWindows digest expected ends (.str time) = .ok () ↔ ∃ w ∈ ws, w.Covers digest now := by
  have opened := mapM_isOpen aware parsed
  have any_iff : ((ws.filter (fun w => w.bundleDigest = digest)).map
      (fun w => decide (now.instant < w.ends.instant))).any id = true ↔
        ∃ w ∈ ws, w.Covers digest now := by
    simp [Window.Covers]
  unfold checkWindows
  constructor
  · intro ran
    obtain ⟨_, -, ran⟩ := bind_ok.mp ran
    obtain ⟨_, -, ran⟩ := bind_ok.mp ran
    rw [parse, read, orRefuse, ok_bind, opened, orRefuse, ok_bind] at ran
    exact any_iff.mp (ensure_ok.mp ran)
  · intro covered
    have some_ : ends ≠ [] := by
      intro none_
      obtain ⟨w, held, mine, -⟩ := covered
      rw [none_, List.forall₂_nil_right_iff] at parsed
      have kept : w ∈ ws.filter (fun w => w.bundleDigest = digest) :=
        List.mem_filter.mpr ⟨held, decide_eq_true mine⟩
      rw [parsed] at kept
      cases kept
    refine bind_ok.mpr ⟨(), ensure_ok.mpr some_, ?_⟩
    refine bind_ok.mpr ⟨(), ensure_ok.mpr Value.noConfusion, ?_⟩
    rw [parse, read, orRefuse, ok_bind, opened, orRefuse, ok_bind]
    exact ensure_ok.mpr (any_iff.mpr covered)

theorem filter_nonneg {v : Option Int} {n : Int} :
    v.filter (fun n => 0 ≤ n) = some n ↔ v = some n ∧ 0 ≤ n := by
  rw [Option.filter_eq_some_iff, decide_eq_true_iff]

/-- The bound bundle is held to the epoch. -/
theorem checkEpoch_iff {bundle binding : Dict Str Value} {floor : Int}
    (bound : (Dict.get? binding "min_bundle_epoch").getD (.int 0) = .int floor)
    (bounded : 0 ≤ floor) : checkEpoch bundle binding = .ok () ↔ EpochHolds bundle floor := by
  have floorRead : ((Dict.get? binding "min_bundle_epoch").getD (.int 0)).int?.filter
      (fun n => 0 ≤ n) = some floor := by
    rw [bound]
    exact filter_nonneg.mpr ⟨rfl, bounded⟩
  have declared : ∀ epoch, ((Dict.get? bundle "bundle_epoch").bind Value.int?).filter
      (fun n => 0 ≤ n) = some epoch ↔
        Dict.get? bundle "bundle_epoch" = some (.int epoch) ∧ 0 ≤ epoch := by
    intro epoch
    rw [filter_nonneg]
    apply and_congr_left'
    cases Dict.get? bundle "bundle_epoch" with
    | none => simp
    | some v => cases v <;> simp [Value.int?]
  unfold checkEpoch
  rw [floorRead]
  constructor
  · intro ran
    split at ran
    · cases ran
    · rename_i epoch found
      obtain ⟨stated, valid⟩ := (declared epoch).mp found
      exact ⟨epoch, stated, valid, ensure_ok.mp ran⟩
  · rintro ⟨epoch, stated, valid, above⟩
    rw [(declared epoch).mpr ⟨stated, valid⟩]
    exact ensure_ok.mpr above

/-- Exactly what the check accepts: the two tests are never alternatives for one bundle. -/
theorem checkAntiRollback_iff {digest expected time : Str} {bundle binding : Dict Str Value}
    {floor : Int} {ws : List Window} {now : Datetime} (binds : Binds binding expected floor ws)
    (read : Adoption.parse time = .ok now) (aware : now.offset.isSome = true) :
    checkAntiRollback digest bundle (.dict binding) (.str time) = .ok () ↔
      (digest = expected ∧ EpochHolds bundle floor) ∨
        (digest ≠ expected ∧ ∃ w ∈ ws, w.Covers digest now) := by
  obtain ⟨records, listed, described⟩ := binds.recorded
  obtain ⟨ends, collected, parsed⟩ := windows_described digest described
  rw [checkAntiRollback_eq binds.digest binds.filled]
  by_cases same : digest = expected
  · rw [if_neg (not_not.mpr same), checkEpoch_iff binds.epoch binds.bounded]
    simp [same]
  · rw [if_pos same, listed, ok_bind, collected, ok_bind, checkWindows_iff read aware parsed]
    simp [same]

/-- The check accepts what is authorized, and no order of the records changes its answer. -/
structure AcceptsAuthorized (digest expected time : Str) (bundle binding : Dict Str Value)
    (floor : Int) (ws : List Window) (now : Datetime) : Prop where
  exact_ : checkAntiRollback digest bundle (.dict binding) (.str time) = .ok () ↔
    Authorized digest expected bundle floor ws now
  unordered : ∀ binding' ws', Binds binding' expected floor ws' → ws'.Perm ws →
    (checkAntiRollback digest bundle (.dict binding') (.str time) = .ok () ↔
      checkAntiRollback digest bundle (.dict binding) (.str time) = .ok ())

/-- The check is the authorization exactly when the bound digest itself needs no window: it
is not the pinned one, its epoch holds, or no open window covers it. -/
theorem acceptsAuthorized_iff {digest expected time : Str} {bundle binding : Dict Str Value}
    {floor : Int} {ws : List Window} {now : Datetime} (binds : Binds binding expected floor ws)
    (read : Adoption.parse time = .ok now) (aware : now.offset.isSome = true) :
    AcceptsAuthorized digest expected time bundle binding floor ws now ↔
      digest ≠ expected ∨ EpochHolds bundle floor ∨ ∀ w ∈ ws, ¬ w.Covers digest now := by
  have accepts := @checkAntiRollback_iff digest _ _ bundle _ _ _ _ binds read aware
  constructor
  · intro law
    by_contra fails
    push Not at fails
    obtain ⟨same, low, w, held, covers⟩ := fails
    have authorized : Authorized digest expected bundle floor ws now := Or.inr ⟨w, held, covers⟩
    rcases accepts.mp (law.exact_.mpr authorized) with ⟨-, holds⟩ | ⟨other, -⟩
    · exact low holds
    · exact other same
  · intro fits
    refine ⟨?_, ?_⟩
    · rw [accepts]
      unfold Authorized
      by_cases same : digest = expected
      · rcases fits with other | holds | closed
        · exact absurd same other
        · simp [same, holds]
        · have none_ : ¬ ∃ w ∈ ws, w.Covers digest now := by
            rintro ⟨w, held, covers⟩
            exact closed w held covers
          simp [none_]
      · simp [same]
    · intro binding' ws' binds' perm
      have accepts' := @checkAntiRollback_iff digest _ _ bundle _ _ _ _ binds' read aware
      have covered : (∃ w ∈ ws', w.Covers digest now) ↔ ∃ w ∈ ws, w.Covers digest now := by
        simp only [perm.mem_iff]
      rw [accepts', accepts, covered]

/-- A central bundle. -/
def centralDigest : Str := "sha256:" ++ List.replicate 64 (Chr.ofChar 'a')

/-- A window of the central bundle itself, until the first of January 2027. -/
def centralWindow : Window := ⟨centralDigest, ⟨63934444800000000, some 0⟩, rfl⟩

/-- The central bundle is bound from its second epoch on, with a window for the first. -/
def centralBinding : Dict Str Value :=
  [("expected_digest", .str centralDigest), ("grandfathers", .list [.dict
      [("bundle_digest", .str centralDigest), ("reason", .str "migration"),
        ("valid_until", .str "20270101T00Z")]]),
    ("min_bundle_epoch", .int 2)]

theorem centralBinding_binds : Binds centralBinding centralDigest 2 [centralWindow] where
  digest := rfl
  filled := by decide
  epoch := rfl
  bounded := by decide
  recorded := ⟨_, rfl, .cons ⟨_, rfl, rfl, by decide⟩ .nil⟩

theorem acceptsAuthorized_iff_second_epoch :
    AcceptsAuthorized centralDigest centralDigest "20260701T00Z" [("bundle_epoch", .int 2)]
      centralBinding 2 [centralWindow] ⟨63918547200000000, some 0⟩ :=
  (acceptsAuthorized_iff centralBinding_binds (by decide) rfl).mpr
    (Or.inr (Or.inl ⟨2, rfl, by decide, by decide⟩))

/-- The first epoch of the bound bundle has an open window, and is refused. -/
theorem bound_window_ignored :
    ¬ ∀ (digest expected time : Str) (bundle binding : Dict Str Value) (floor : Int)
      (ws : List Window) (now : Datetime), Binds binding expected floor ws →
      Adoption.parse time = .ok now → now.offset.isSome = true →
      AcceptsAuthorized digest expected time bundle binding floor ws now := by
  intro law
  have parsed : Adoption.parse "20260701T00Z" = .ok ⟨63918547200000000, some 0⟩ := by decide
  have holds := law centralDigest centralDigest "20260701T00Z" [("bundle_epoch", .int 1)]
    centralBinding 2 [centralWindow] ⟨63918547200000000, some 0⟩ centralBinding_binds parsed rfl
  have accepted := holds.exact_.mpr
    (Or.inr ⟨centralWindow, List.mem_cons_self, rfl, by decide⟩)
  rcases (checkAntiRollback_iff centralBinding_binds parsed rfl).mp accepted with
    ⟨-, epoch, stated, -, above⟩ | ⟨other, -⟩
  · cases stated
    exact absurd above (by decide)
  · exact other rfl

end DevGate.Policy
