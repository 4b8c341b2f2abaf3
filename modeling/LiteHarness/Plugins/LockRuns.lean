import LiteHarness.Foundation.Checks
import LiteHarness.Foundation.SelfDelimiting
import LiteHarness.Plugins.InstallLock

/-!
# What the lockfile is through every run

An operation ends in one of two ways: the file is as it was, or it is the text of a lock that was
validated, which is read back as that lock (`run_transact`). What holds of every lock that can be
read therefore holds after every run. What an operation makes of the activations is told by one
lemma for all of them (`activations_of_change`): they stay, or the record of one identifier is
replaced by one whose generation is not smaller.
-/

namespace LiteHarness.Plugins

open Foundation Foundation.Eff

/-! ## Keys -/

theorem at_notMem_of_isPluginId {id : JsString} (h : isPluginId id = true) :
    (64 : UInt16) ∉ id := by
  rcases id with _ | ⟨u, rest⟩
  · exact absurd h nofun
  · rw [isPluginId, Bool.and_eq_true, Bool.and_eq_true, List.all_eq_true] at h
    rw [List.mem_cons]
    rintro (rfl | hmem)
    · exact absurd h.1.1 (by decide)
    · exact absurd (h.2 64 hmem) (by decide)

theorem at_notMem_of_isWords {text : JsString} {read : Bool} (h : isWords read text = true) :
    (64 : UInt16) ∉ text := by
  induction text generalizing read with
  | nil => exact List.not_mem_nil
  | cons u rest ih =>
    rw [isWords] at h
    rw [List.mem_cons]
    split_ifs at h with hu
    · rintro (rfl | hmem)
      · exact absurd hu (by decide)
      · exact ih h hmem
    · rw [Bool.and_eq_true, Bool.and_eq_true] at h
      rintro (rfl | hmem)
      · exact absurd h.1.2 (by decide)
      · exact ih h.2 hmem

theorem at_notMem_of_isVersionSuffix {text : JsString} (h : isVersionSuffix text = true) :
    (64 : UInt16) ∉ text := by
  rcases text with _ | ⟨u, rest⟩
  · exact List.not_mem_nil
  rw [isVersionSuffix] at h
  rw [List.mem_cons]
  split_ifs at h with hu
  · rintro (rfl | hmem)
    · exact absurd hu (by decide)
    · exact at_notMem_of_isWords h hmem
  · rw [Bool.and_eq_true, Bool.and_eq_true] at h
    rintro (rfl | hmem)
    · exact absurd h.1.1 (by decide)
    · rw [← List.takeWhile_append_dropWhile (p := (· ≠ 43)) (l := rest), List.mem_append] at hmem
      rcases hmem with hmem | hmem
      · exact at_notMem_of_isWords h.1.2 hmem
      · rcases hdrop : rest.dropWhile (· ≠ 43) with _ | ⟨v, build⟩
        · rw [hdrop] at hmem
          exact List.not_mem_nil hmem
        · have hplus := List.head_dropWhile_not (fun w : UInt16 ↦ w ≠ 43)
            (show rest.dropWhile (· ≠ 43) ≠ [] by rw [hdrop]; exact List.cons_ne_nil _ _)
          simp only [hdrop, List.head_cons] at hplus
          rw [hdrop] at h hmem
          rcases List.mem_cons.mp hmem with rfl | hmem
          · exact absurd hplus (by decide)
          · exact at_notMem_of_isWords h.2 hmem

theorem at_notMem_of_isSafePluginVersion {version : JsString}
    (h : isSafePluginVersion version = true) : (64 : UInt16) ∉ version := by
  rw [isSafePluginVersion, Bool.and_eq_true] at h
  intro hmem
  rw [← List.takeWhile_append_dropWhile (p := fun u ↦ isDigit u || u = 46) (l := version),
    List.mem_append] at hmem
  rcases hmem with hmem | hmem
  · exact absurd (List.mem_takeWhile_imp hmem) (by decide)
  · exact at_notMem_of_isVersionSuffix h.2 hmem

/-- The key of a package that is valid tells its identifier and its version, whatever the other
texts are. -/
theorem packageKey_inj {id version id' version' : JsString} (hid : isPluginId id = true)
    (hversion : isSafePluginVersion version = true)
    (h : packageKey id version = packageKey id' version') : id = id' ∧ version = version' := by
  have hcount := congrArg (List.count 64) h
  rw [packageKey, packageKey, List.count_append, List.count_append, List.count_cons_self,
    List.count_cons_self, List.count_eq_zero.mpr (at_notMem_of_isPluginId hid),
    List.count_eq_zero.mpr (at_notMem_of_isSafePluginVersion hversion)] at hcount
  have hfree : (64 : UInt16) ∉ id' := List.count_eq_zero.mp (by omega)
  have hnot : ∀ {text : JsString}, (64 : UInt16) ∉ text → ∀ u ∈ text, ¬u = 64 :=
    fun htext u hu heq ↦ htext (heq ▸ hu)
  obtain ⟨hsame, hrest⟩ := append_eq_append_of_free (D := (· = 64)) (s := 64 :: version)
    (t := 64 :: version') (hnot (at_notMem_of_isPluginId hid)) (hnot hfree) rfl rfl h
  exact ⟨hsame, (List.cons.inj hrest).2⟩

/-! ## Locks that can be read -/

/-- The lock passes its validation. -/
def PluginLockfile.Valid (lock : PluginLockfile) : Prop := validatePluginLock lock = .ok ()

/-- What the proofs below take from a validation. -/
structure PluginLockfile.Checked (lock : PluginLockfile) : Prop where
  coordinates : ∀ key entry, lock.plugins.get? key = some entry →
    isPluginId entry.id = true ∧ isSafePluginVersion entry.version = true ∧
      key = packageKey entry.id entry.version
  enablement : ∀ key entry, lock.plugins.get? key = some entry →
    entry.enabled = decide ((lock.activations.get? entry.id).bind (·.activeVersion) =
      some entry.version)

theorem coordinates_of_eq_ok {id version : JsString} {u : Unit}
    (h : validatePackageCoordinates id version = .ok u) :
    isPluginId id = true ∧ isSafePluginVersion version = true := by
  rw [validatePackageCoordinates] at h
  split_ifs at h with hid hversion
  exact ⟨by simpa using hid, by simpa using hversion⟩

theorem PluginLockfile.Valid.checked {lock : PluginLockfile} (h : lock.Valid) : lock.Checked := by
  rw [Valid, validatePluginLock] at h
  obtain ⟨_, hentries, h⟩ := except_bind_eq_ok_iff.mp h
  obtain ⟨_, -, h⟩ := except_bind_eq_ok_iff.mp h
  obtain ⟨_, henablement, -⟩ := except_bind_eq_ok_iff.mp h
  constructor
  · intro key entry hentry
    obtain ⟨u, -, hchecked⟩ :=
      exists_of_mapM_eq_ok hentries (key, entry) (OrderedMap.get?_eq_some_iff.mp hentry)
    obtain ⟨_, hcoordinates, hchecked⟩ := except_bind_eq_ok_iff.mp hchecked
    obtain ⟨hid, hversion⟩ := coordinates_of_eq_ok hcoordinates
    exact ⟨hid, hversion, not_not.mp (check_then_eq_ok_iff.mp hchecked).1⟩
  · intro key entry hentry
    obtain ⟨u, -, hchecked⟩ :=
      exists_of_mapM_eq_ok henablement (key, entry) (OrderedMap.get?_eq_some_iff.mp hentry)
    exact not_not.mp (check_eq_ok_iff.mp hchecked)

/-- The file can be read, as a lock. -/
def LockText.Reads (file : LockText) (lock : PluginLockfile) : Prop := readText file = .ok lock

theorem LockText.Reads.valid {file : LockText} {lock : PluginLockfile} (h : file.Reads lock) :
    lock.Valid := by
  rcases file with _ | _ | ⟨plugins, activations, cleanupDebts⟩
  · obtain rfl := Except.ok.inj h
    rfl
  · exact absurd h nofun
  · rw [Reads, readText] at h
    obtain ⟨_, -, h⟩ := except_bind_eq_ok_iff.mp h
    obtain ⟨_, hvalid, h⟩ := except_bind_eq_ok_iff.mp h
    obtain rfl := Except.ok.inj h
    exact hvalid

/-- A valid lock is read back from its text. -/
theorem PluginLockfile.Valid.reads {lock : PluginLockfile} (h : lock.Valid) :
    lock.text.Reads lock := by
  rw [LockText.Reads, text, readText]
  exact except_bind_eq_ok_iff.mpr ⟨lock.activations, rfl,
    except_bind_eq_ok_iff.mpr ⟨(), h, rfl⟩⟩

/-! ## How an operation ends -/

/-- **How an operation ends**: with an error, and the file as it was; or with what it makes of the
lock, written if there is something to write. -/
theorem run_transact (s : LockFaults) (change : PluginLockfile → LockChange) (file : LockText) :
    (∃ halt, (transact s change).run file = (.error halt, file)) ∨
      ∃ lock written answer, file.Reads lock ∧ change lock = .ok (written, answer) ∧
        (written = none ∧ (transact s change).run file = (.ok answer, file) ∨
          ∃ lock', written = some lock' ∧ lock'.Valid ∧
            (transact s change).run file = (.ok answer, lock'.text)) := by
  have hread : (∃ halt, (read s).run file = (.error halt, file)) ∨
      ∃ lock, file.Reads lock ∧ (read s).run file = (.ok lock, file) := by
    rw [read]
    rcases s.readFile with _ | _ | _
    · rw [run_bind, run_attempt_succeeds, andThen_ok, run_fromExcept]
      rcases htext : readText file with e | lock
      · exact Or.inl ⟨_, rfl⟩
      · exact Or.inr ⟨lock, htext, rfl⟩
    · exact Or.inl ⟨_, rfl⟩
    · exact Or.inl ⟨_, rfl⟩
  have hwrite : ∀ lock, (∃ halt, (write s lock).run file = (.error halt, file)) ∨
      lock.Valid ∧ (write s lock).run file = (.ok ⟨⟩, lock.text) := by
    intro lock
    rw [write, run_bind, run_fromExcept]
    rcases hvalid : validatePluginLock lock with e | ⟨⟩
    · exact Or.inl ⟨_, rfl⟩
    · rw [throwing, Except.mapError, andThen_ok, run_bind]
      rcases s.writeTemporary with _ | _ | _
      · rcases s.rename with _ | _ | _
        · exact Or.inr ⟨hvalid, rfl⟩
        · exact Or.inl ⟨_, rfl⟩
        · exact Or.inl ⟨_, rfl⟩
      · exact Or.inl ⟨_, rfl⟩
      · exact Or.inl ⟨_, rfl⟩
  rw [transact, run_bind]
  rcases hread with ⟨halt, hrun⟩ | ⟨lock, hreads, hrun⟩
  · rw [hrun]
    exact Or.inl ⟨halt, rfl⟩
  rw [hrun, andThen_ok, run_bind, run_fromExcept]
  rcases hchange : change lock with e | ⟨_ | lock', answer⟩
  · exact Or.inl ⟨_, rfl⟩
  · exact Or.inr ⟨lock, none, answer, hreads, hchange, Or.inl ⟨rfl, rfl⟩⟩
  · rcases hwrite lock' with ⟨halt, hrun⟩ | ⟨hvalid, hrun⟩
    · refine Or.inl ⟨halt, ?_⟩
      change andThen ((write s lock').run file) _ = _
      rw [hrun, andThen_error]
    · refine Or.inr ⟨lock, some lock', answer, hreads, hchange, Or.inr ⟨lock', rfl, hvalid, ?_⟩⟩
      change andThen ((write s lock').run file) _ = _
      rw [hrun, andThen_ok]
      rfl

/-! ## What the operations make of a lock -/

namespace PluginLockfile

variable {lock lock' : PluginLockfile} {written : Option PluginLockfile} {answer : LockAnswer}
  {id version : JsString}

/-- The generation of an identifier, 0 where nothing was ever active. -/
def generation (lock : PluginLockfile) (id : JsString) : ℤ :=
  (lock.activations.get? id).elim 0 (·.generation)

/-- The version that is active. -/
def active (lock : PluginLockfile) (id : JsString) : Option JsString :=
  truthy ((lock.activations.get? id).bind (·.activeVersion))

/-- The version a rollback goes back to. -/
def previous (lock : PluginLockfile) (id : JsString) : Option JsString :=
  truthy ((lock.activations.get? id).bind (·.previousVersion))

/-- The version that was disabled. -/
def resume (lock : PluginLockfile) (id : JsString) : Option JsString :=
  truthy ((lock.activations.get? id).bind (·.resumeVersion))

/-- The record of one identifier is replaced. -/
def Moves (lock lock' : PluginLockfile) (id : JsString) (record : PluginActivationRecord) : Prop :=
  lock'.activations = lock.activations.set id record

theorem activate_eq_ok (h : lock.activate id version = .ok (written, answer)) :
    ∃ lock', written = some lock' ∧
      lock.Moves lock' id (activationOf (lock.activations.get? id) version) := by
  rw [activate] at h
  obtain ⟨_, -, h⟩ := except_bind_eq_ok_iff.mp h
  rcases hexisting : lock.plugins.get? (packageKey id version) with _ | existing
  · rw [hexisting] at h
    exact absurd h nofun
  · rw [hexisting] at h
    dsimp only at h
    split_ifs at h
    exact ⟨_, (Prod.mk.inj (Except.ok.inj h)).1.symm, rfl⟩

theorem disable_eq_ok (h : lock.disable id = .ok (written, answer)) :
    ∃ current active lock', lock.activations.get? id = some current ∧
      truthy current.activeVersion = some active ∧ written = some lock' ∧
      lock.Moves lock' id
        { previousVersion := (truthy current.previousVersion).filter (· ≠ active)
          resumeVersion := some active
          generation := current.generation + 1 } := by
  rw [disable] at h
  rcases hcurrent : lock.activations.get? id with _ | current
  · rw [hcurrent] at h
    exact absurd h nofun
  rw [hcurrent] at h
  dsimp only at h
  rcases hactive : truthy current.activeVersion with _ | active
  · rw [hactive] at h
    exact absurd h nofun
  rw [hactive] at h
  dsimp only at h
  rcases hentry : lock.plugins.get? (packageKey id active) with _ | entry
  · rw [hentry] at h
    exact absurd h nofun
  · rw [hentry] at h
    exact ⟨current, active, _, rfl, hactive, (Prod.mk.inj (Except.ok.inj h)).1.symm, rfl⟩

theorem rollback_eq_ok (h : lock.rollback id = .ok (written, answer)) :
    ∃ current previous entry lock', lock.activations.get? id = some current ∧
      truthy current.previousVersion = some previous ∧
      lock.plugins.get? (packageKey id previous) = some entry ∧ written = some lock' ∧
      lock.Moves lock' id
        { activeVersion := some entry.version
          previousVersion := truthy (current.activeVersion <|> current.resumeVersion)
          generation := current.generation + 1 } := by
  rw [rollback] at h
  rcases hcurrent : lock.activations.get? id with _ | current
  · rw [hcurrent] at h
    exact absurd h nofun
  rw [hcurrent] at h
  dsimp only at h
  rcases hprevious : truthy current.previousVersion with _ | previous
  · rw [hprevious] at h
    exact absurd h nofun
  rw [hprevious] at h
  dsimp only at h
  rcases hentry : lock.plugins.get? (packageKey id previous) with _ | entry
  · rw [hentry] at h
    exact absurd h nofun
  rw [hentry] at h
  dsimp only at h
  split_ifs at h
  exact ⟨current, previous, entry, _, rfl, hprevious, hentry,
    (Prod.mk.inj (Except.ok.inj h)).1.symm, rfl⟩

theorem generation_of_get? {current : PluginActivationRecord}
    (h : lock.activations.get? id = some current) : lock.generation id = current.generation := by
  rw [generation, h]
  rfl

/-- The record of one identifier is replaced by one of a generation that is not smaller. -/
def Advances (lock lock' : PluginLockfile) : Prop :=
  ∃ id record, lock.Moves lock' id record ∧ lock.generation id ≤ record.generation

theorem advances_of_activate (h : lock.activate id version = .ok (some lock', answer)) :
    lock.Advances lock' := by
  obtain ⟨lock', hwritten, hmoves⟩ := activate_eq_ok h
  obtain rfl := Option.some.inj hwritten
  exact ⟨id, _, hmoves, (lt_add_one _).le⟩

theorem advances_of_disable (h : lock.disable id = .ok (some lock', answer)) :
    lock.Advances lock' := by
  obtain ⟨current, active, lock', hcurrent, -, hwritten, hmoves⟩ := disable_eq_ok h
  obtain rfl := Option.some.inj hwritten
  exact ⟨id, _, hmoves, (generation_of_get? hcurrent).trans_le (lt_add_one _).le⟩

theorem advances_of_rollback (h : lock.rollback id = .ok (some lock', answer)) :
    lock.Advances lock' := by
  obtain ⟨current, previous, entry, lock', hcurrent, -, -, hwritten, hmoves⟩ := rollback_eq_ok h
  obtain rfl := Option.some.inj hwritten
  exact ⟨id, _, hmoves, (generation_of_get? hcurrent).trans_le (lt_add_one _).le⟩

theorem setEnabled_cases {enabled : Bool}
    (h : lock.setEnabled id version enabled = .ok (some lock', answer)) :
    lock'.activations = lock.activations ∨ lock.Advances lock' := by
  rw [setEnabled] at h
  obtain ⟨_, -, h⟩ := except_bind_eq_ok_iff.mp h
  rcases hexisting : lock.plugins.get? (packageKey id version) with _ | existing
  · rw [hexisting] at h
    exact absurd h nofun
  · rw [hexisting] at h
    dsimp only at h
    split_ifs at h
    · exact Or.inr (advances_of_activate h)
    · exact Or.inr (advances_of_disable h)
    · obtain ⟨hlock, -⟩ := Prod.mk.inj (Except.ok.inj h)
      obtain rfl := Option.some.inj hlock
      exact Or.inl rfl

theorem uninstall_cases (h : lock.uninstall id version = .ok (some lock', answer)) :
    lock'.activations = lock.activations ∨ lock.Advances lock' := by
  rw [uninstall] at h
  obtain ⟨_, -, h⟩ := except_bind_eq_ok_iff.mp h
  rcases hcurrent : lock.activations.get? id with _ | current
  · rw [hcurrent] at h
    dsimp only at h
    split_ifs at h
    · obtain ⟨hlock, -⟩ := Prod.mk.inj (Except.ok.inj h)
      exact absurd hlock.symm (Option.some_ne_none _)
    · obtain ⟨hlock, -⟩ := Prod.mk.inj (Except.ok.inj h)
      obtain rfl := Option.some.inj hlock
      exact Or.inl rfl
  · rw [hcurrent] at h
    dsimp only at h
    split_ifs at h
    · obtain ⟨hlock, -⟩ := Prod.mk.inj (Except.ok.inj h)
      exact absurd hlock.symm (Option.some_ne_none _)
    · obtain ⟨hlock, -⟩ := Prod.mk.inj (Except.ok.inj h)
      obtain rfl := Option.some.inj hlock
      exact Or.inr ⟨id, _, rfl, (generation_of_get? hcurrent).le⟩

/-- **What an operation makes of the activations**: they stay, or one record is replaced by one of a
generation that is not smaller. -/
theorem activations_of_change {operation : LockOperation}
    (h : operation.change lock = .ok (some lock', answer)) :
    lock'.activations = lock.activations ∨ lock.Advances lock' := by
  rcases operation with ⟨inspected, grant, now⟩ | ⟨id, version, enabled⟩ | ⟨id, version⟩ | id | id |
    ⟨id, version, verification⟩ | ⟨id, version, attempts, lastError, now⟩ | ⟨id, version⟩ | _ |
    ⟨id, version⟩
  · -- `install`
    change lock.install inspected grant now = _ at h
    rw [install] at h
    dsimp only at h
    split_ifs at h
    obtain ⟨_, -, h⟩ := except_bind_eq_ok_iff.mp h
    obtain ⟨hlock, -⟩ := Prod.mk.inj (Except.ok.inj h)
    obtain rfl := Option.some.inj hlock
    exact Or.inl rfl
  · exact setEnabled_cases h
  · exact Or.inr (advances_of_activate h)
  · exact Or.inr (advances_of_disable h)
  · exact Or.inr (advances_of_rollback h)
  · -- `recordVerification`
    change lock.recordVerification id version verification = _ at h
    rw [recordVerification] at h
    obtain ⟨_, -, h⟩ := except_bind_eq_ok_iff.mp h
    rcases hexisting : lock.plugins.get? (packageKey id version) with _ | existing
    · rw [hexisting] at h
      exact absurd h (by simp)
    · rw [hexisting] at h
      obtain ⟨hlock, -⟩ := Prod.mk.inj (Except.ok.inj h)
      obtain rfl := Option.some.inj hlock
      exact Or.inl rfl
  · -- `recordCleanupDebt`
    change lock.recordCleanupDebt id version attempts lastError now = _ at h
    rw [recordCleanupDebt] at h
    obtain ⟨_, -, h⟩ := except_bind_eq_ok_iff.mp h
    dsimp only at h
    split_ifs at h
    obtain ⟨hlock, -⟩ := Prod.mk.inj (Except.ok.inj h)
    obtain rfl := Option.some.inj hlock
    exact Or.inl rfl
  · -- `clearCleanupDebt`
    change lock.clearCleanupDebt id version = _ at h
    rw [clearCleanupDebt] at h
    obtain ⟨_, -, h⟩ := except_bind_eq_ok_iff.mp h
    split_ifs at h
    · obtain ⟨hlock, -⟩ := Prod.mk.inj (Except.ok.inj h)
      exact absurd hlock.symm (Option.some_ne_none _)
    · obtain ⟨hlock, -⟩ := Prod.mk.inj (Except.ok.inj h)
      obtain rfl := Option.some.inj hlock
      exact Or.inl rfl
  · -- `clearAllCleanupDebts`
    change lock.clearAllCleanupDebts = _ at h
    rw [clearAllCleanupDebts] at h
    split_ifs at h
    · obtain ⟨hlock, -⟩ := Prod.mk.inj (Except.ok.inj h)
      exact absurd hlock.symm (Option.some_ne_none _)
    · obtain ⟨hlock, -⟩ := Prod.mk.inj (Except.ok.inj h)
      obtain rfl := Option.some.inj hlock
      exact Or.inl rfl
  · exact uninstall_cases h

/-! ## Back and forth -/

theorem eq_some_of_truthy {text : Option JsString} (h : truthy text = some version) :
    text = some version ∧ truthy (some version) = some version := by
  obtain ⟨htext, hne⟩ := Option.filter_eq_some_iff.mp h
  exact ⟨htext, Option.filter_eq_some_iff.mpr ⟨rfl, hne⟩⟩

theorem truthy_truthy (text : Option JsString) : truthy (truthy text) = truthy text := by
  rw [truthy, truthy, Option.filter_filter]
  simp only [Bool.and_self]

section Moves

variable {record : PluginActivationRecord}

theorem Moves.get? (h : lock.Moves lock' id record) :
    lock'.activations.get? id = some record := by
  rw [h, OrderedMap.get?_set_self]

theorem active_of_get? (h : lock.activations.get? id = some record) :
    lock.active id = truthy record.activeVersion := by
  rw [active, h, Option.bind_some]

theorem previous_of_get? (h : lock.activations.get? id = some record) :
    lock.previous id = truthy record.previousVersion := by
  rw [previous, h, Option.bind_some]

theorem resume_of_get? (h : lock.activations.get? id = some record) :
    lock.resume id = truthy record.resumeVersion := by
  rw [resume, h, Option.bind_some]

end Moves

/-- The package under a key of an identifier and a version is of that version. -/
theorem Valid.version_eq (h : lock.Valid) {entry : PluginLockEntry}
    (hentry : lock.plugins.get? (packageKey id version) = some entry) :
    entry.version = version := by
  obtain ⟨hid, hversion, hkey⟩ := h.checked.coordinates _ entry hentry
  exact (packageKey_inj hid hversion hkey.symm).2

/-- What is active is restored, and what it would go back to. -/
def Restored (lock lock' : PluginLockfile) (id : JsString) : Prop :=
  lock'.active id = lock.active id ∧ lock'.previous id = lock.previous id

/-- **A rollback of a rollback**: what was active is active again, and what it would go back to is
that again. -/
theorem rollback_rollback {lock₁ lock₂ : PluginLockfile} {answer₁ answer₂ : LockAnswer}
    (hvalid : lock.Valid) (hvalid₁ : lock₁.Valid) (hactive : lock.active id ≠ none)
    (h₁ : lock.rollback id = .ok (some lock₁, answer₁))
    (h₂ : lock₁.rollback id = .ok (some lock₂, answer₂)) : lock.Restored lock₂ id := by
  obtain ⟨current, previous, entry, _, hcurrent, hprevious, hentry, hwritten₁, hmoves₁⟩ :=
    rollback_eq_ok h₁
  obtain ⟨current₁, previous₁, entry₁, _, hcurrent₁, hprevious₁, hentry₁, hwritten₂, hmoves₂⟩ :=
    rollback_eq_ok h₂
  obtain rfl := Option.some.inj hwritten₁
  obtain rfl := Option.some.inj hwritten₂
  rw [active_of_get? hcurrent] at hactive
  obtain ⟨active, hactive⟩ := Option.ne_none_iff_exists'.mp hactive
  obtain ⟨hraw, hkeeps⟩ := eq_some_of_truthy hactive
  obtain rfl := Option.some.inj (hmoves₁.get?.symm.trans hcurrent₁)
  -- the second rollback goes back to what was active, and the first one is what it would undo
  have hback : previous₁ = active := by
    dsimp only at hprevious₁
    rw [hraw, show (some active <|> current.resumeVersion) = some active from rfl, hkeeps,
      hkeeps] at hprevious₁
    exact (Option.some.inj hprevious₁).symm
  constructor
  · rw [active_of_get? hmoves₂.get?, active_of_get? hcurrent, hactive, hvalid₁.version_eq hentry₁,
      hback, hkeeps]
  · rw [previous_of_get? hmoves₂.get?, previous_of_get? hcurrent, hprevious]
    change truthy (truthy (some entry.version)) = _
    rw [hvalid.version_eq hentry, truthy_truthy, (eq_some_of_truthy hprevious).2]

/-- **Disabling, and activating again** what was disabled. -/
theorem activate_disable {lock₁ lock₂ : PluginLockfile} {answer₁ answer₂ : LockAnswer}
    (hne : lock.previous id ≠ lock.active id) (h₁ : lock.disable id = .ok (some lock₁, answer₁))
    (hresume : lock₁.resume id = some version)
    (h₂ : lock₁.activate id version = .ok (some lock₂, answer₂)) : lock.Restored lock₂ id := by
  obtain ⟨current, active, _, hcurrent, hactive, hwritten₁, hmoves₁⟩ := disable_eq_ok h₁
  obtain ⟨_, hwritten₂, hmoves₂⟩ := activate_eq_ok h₂
  obtain rfl := Option.some.inj hwritten₁
  obtain rfl := Option.some.inj hwritten₂
  rw [hmoves₁.get?] at hmoves₂
  have hkeeps := (eq_some_of_truthy hactive).2
  obtain rfl : active = version := by
    rw [resume_of_get? hmoves₁.get?, hkeeps] at hresume
    exact Option.some.inj hresume
  rw [previous_of_get? hcurrent, active_of_get? hcurrent, hactive] at hne
  constructor
  · rw [active_of_get? hmoves₂.get?, active_of_get? hcurrent, hactive]
    exact hkeeps
  · -- the pointer is kept by the one and by the other
    have hkept : (truthy current.previousVersion).filter (· ≠ active) =
        truthy current.previousVersion := by
      rcases hprevious : truthy current.previousVersion with _ | previous
      · rfl
      · have hother : previous ≠ active := fun h ↦ hne (hprevious.trans (congrArg some h))
        exact Option.filter_eq_some_iff.mpr ⟨rfl, decide_eq_true hother⟩
    rw [previous_of_get? hmoves₂.get?, previous_of_get? hcurrent, hkept]
    change truthy ((truthy (truthy current.previousVersion)).filter (· ≠ active)) = _
    rw [truthy_truthy, hkept, truthy_truthy]

/-- A generation never decreases in an operation. -/
theorem generation_of_change {operation : LockOperation}
    (h : operation.change lock = .ok (some lock', answer)) (id : JsString) :
    lock.generation id ≤ lock'.generation id := by
  rcases activations_of_change h with hsame | ⟨id', record, hmoves, hle⟩
  · rw [generation, generation, hsame]
  · rw [generation, generation, hmoves, OrderedMap.get?_set]
    split_ifs with hid
    · subst hid
      exact hle
    · rfl

/-- What is active, or has a cleanup that is owed, stays. -/
theorem uninstall_eq_ok (h : lock.active id = some version ∨
    (lock.cleanupDebts.get? (packageKey id version)).isSome = true)
    (hok : lock.uninstall id version = .ok (written, answer)) :
    written = none := by
  rw [uninstall] at hok
  obtain ⟨_, -, hok⟩ := except_bind_eq_ok_iff.mp hok
  dsimp only at hok
  by_cases hmissing : (lock.plugins.get? (packageKey id version)).isNone = true
  · rw [if_pos hmissing] at hok
    exact (Prod.mk.inj (Except.ok.inj hok)).1.symm
  rw [if_neg hmissing] at hok
  by_cases hactive : (lock.activations.get? id).bind (·.activeVersion) = some version
  · rw [if_pos hactive] at hok
    exact absurd hok nofun
  · have hdebt := h.resolve_left fun hsome ↦ hactive (eq_some_of_truthy hsome).1
    rw [if_neg hactive, if_pos hdebt] at hok
    exact absurd hok nofun

end PluginLockfile

/-! ## Runs -/

namespace LockText

open PluginLockfile

variable {file file' : LockText} {lock lock' : PluginLockfile} {c : LockCall}

/-- An operation that returns, whatever becomes of its file operations. -/
def Performs (file : LockText) (operation : LockOperation) (file' : LockText) : Prop :=
  ∃ s answer, (LockCall.program ⟨operation, s⟩).run file = (.ok answer, file')

/-- **What the lockfile is for.** -/
structure Sound (file : LockText) : Prop where
  /-- The file can be read. -/
  readable : ∃ lock, file.Reads lock
  /-- An operation throws and leaves the file alone, or leaves one that can be read. -/
  calls : ∀ c : LockCall, (∃ halt, c.program.run file = (.error halt, file)) ∨
    ∃ answer lock', c.program.run file = (.ok answer, file.step c) ∧ (file.step c).Reads lock'
  /-- What is enabled is what is active. -/
  active : ∀ lock, file.Reads lock → ∀ key entry, lock.plugins.get? key = some entry →
    entry.enabled = true → lock.active entry.id = some entry.version
  /-- At most one version of an identifier is enabled. -/
  single : ∀ lock, file.Reads lock → ∀ key entry key' entry',
    lock.plugins.get? key = some entry → lock.plugins.get? key' = some entry' →
      entry.enabled = true → entry'.enabled = true → entry.id = entry'.id → key = key'
  /-- The generation of an identifier never decreases. -/
  generation : ∀ lock, file.Reads lock → ∀ calls lock', (file.run calls).Reads lock' →
    ∀ id, lock.generation id ≤ lock'.generation id
  /-- Two rollbacks restore what is active. -/
  rollsBack : ∀ lock id file₁ file₂ lock₂, file.Reads lock → lock.active id ≠ none →
    file.Performs (.rollback id) file₁ → file₁.Performs (.rollback id) file₂ →
      file₂.Reads lock₂ → lock.Restored lock₂ id
  /-- What was disabled is restored when its version is activated. -/
  resumes : ∀ lock id file₁ lock₁ version file₂ lock₂, file.Reads lock →
    lock.previous id ≠ lock.active id → file.Performs (.disable id) file₁ → file₁.Reads lock₁ →
      lock₁.resume id = some version → file₁.Performs (.activate id version) file₂ →
        file₂.Reads lock₂ → lock.Restored lock₂ id
  /-- What is active, or has a cleanup that is owed, is not uninstalled. -/
  keeps : ∀ lock id version s, file.Reads lock → (lock.active id = some version ∨
    (lock.cleanupDebts.get? (packageKey id version)).isSome = true) →
      file.step ⟨.uninstall id version, s⟩ = file

theorem Reads.eq (h : file.Reads lock) (h' : file.Reads lock') : lock = lock' :=
  Except.ok.inj (h.symm.trans h')

/-- The outcome of one call on a file that can be read. -/
theorem Reads.call (h : file.Reads lock) (c : LockCall) :
    (∃ halt, c.program.run file = (.error halt, file)) ∨
      ∃ written answer, c.operation.change lock = .ok (written, answer) ∧
        (written = none ∧ c.program.run file = (.ok answer, file) ∨
          ∃ lock', written = some lock' ∧ lock'.Valid ∧
            c.program.run file = (.ok answer, lock'.text)) := by
  rcases run_transact c.faults (fun lock ↦ c.operation.change lock) file
    with hfails | ⟨lock', written, answer, hreads, hchange, hends⟩
  · exact Or.inl hfails
  · obtain rfl := h.eq hreads
    exact Or.inr ⟨written, answer, hchange, hends⟩

/-- An operation that returns. -/
theorem Reads.performs {operation : LockOperation} (h : file.Reads lock)
    (hperforms : file.Performs operation file') :
    ∃ written answer, operation.change lock = .ok (written, answer) ∧
      (written = none ∧ file' = file ∨
        ∃ lock', written = some lock' ∧ lock'.Valid ∧ file' = lock'.text) := by
  obtain ⟨s, answer, hrun⟩ := hperforms
  rcases h.call ⟨operation, s⟩ with ⟨halt, hfails⟩ | ⟨written, answer', hchange, hends⟩
  · rw [hrun] at hfails
    exact absurd (Prod.mk.inj hfails).1 nofun
  · refine ⟨written, answer', hchange, ?_⟩
    rcases hends with ⟨hnone, hsame⟩ | ⟨lock', hsome, hvalid, htext⟩
    · rw [hrun] at hsame
      exact Or.inl ⟨hnone, (Prod.mk.inj hsame).2⟩
    · rw [hrun] at htext
      exact Or.inr ⟨lock', hsome, hvalid, (Prod.mk.inj htext).2⟩

/-- An operation that returns, and writes whenever it does. -/
theorem Reads.writes {operation : LockOperation} (h : file.Reads lock)
    (hwrites : ∀ written answer, operation.change lock = .ok (written, answer) →
      ∃ lock', written = some lock')
    (hperforms : file.Performs operation file') :
    ∃ lock' answer, operation.change lock = .ok (some lock', answer) ∧ lock'.Valid ∧
      file'.Reads lock' := by
  obtain ⟨written, answer, hchange, hends⟩ := h.performs hperforms
  obtain ⟨lock', rfl⟩ := hwrites written answer hchange
  rcases hends with ⟨hnone, -⟩ | ⟨_, hsome, hvalid, rfl⟩
  · exact absurd hnone nofun
  · obtain rfl := Option.some.inj hsome
    exact ⟨lock', answer, hchange, hvalid, hvalid.reads⟩

theorem Reads.rollback {id : JsString} (h : file.Reads lock)
    (hperforms : file.Performs (.rollback id) file') :
    ∃ lock' answer, lock.rollback id = .ok (some lock', answer) ∧ lock'.Valid ∧
      file'.Reads lock' :=
  h.writes (fun _ _ hchange ↦ by
    obtain ⟨_, _, _, lock', -, -, -, hwritten, -⟩ := rollback_eq_ok hchange
    exact ⟨lock', hwritten⟩) hperforms

/-- **One call**: the file can still be read, and no generation has decreased. -/
theorem Reads.step (h : file.Reads lock) (c : LockCall) : ∃ lock', (file.step c).Reads lock' ∧
    ∀ id, lock.generation id ≤ lock'.generation id := by
  rw [LockText.step]
  rcases h.call c with ⟨halt, hrun⟩ | ⟨written, answer, hchange, ⟨-, hrun⟩ |
    ⟨lock', rfl, hvalid, hrun⟩⟩
  · rw [hrun]
    exact ⟨lock, h, fun _ ↦ le_rfl⟩
  · rw [hrun]
    exact ⟨lock, h, fun _ ↦ le_rfl⟩
  · rw [hrun]
    exact ⟨lock', hvalid.reads, generation_of_change hchange⟩

/-- **A run.** -/
theorem Reads.run (h : file.Reads lock) (calls : List LockCall) :
    ∃ lock', (file.run calls).Reads lock' ∧ ∀ id, lock.generation id ≤ lock'.generation id := by
  induction calls generalizing file lock with
  | nil => exact ⟨lock, h, fun _ ↦ le_rfl⟩
  | cons c calls ih =>
    obtain ⟨lock₁, hreads, hle⟩ := h.step c
    obtain ⟨lock', hreads', hle'⟩ := ih hreads
    exact ⟨lock', hreads', fun id ↦ (hle id).trans (hle' id)⟩

theorem Reads.active_of_enabled (h : file.Reads lock) {key : JsString} {entry : PluginLockEntry}
    (hentry : lock.plugins.get? key = some entry) (henabled : entry.enabled = true) :
    lock.active entry.id = some entry.version := by
  have hactive := of_decide_eq_true
    ((h.valid.checked.enablement key entry hentry).symm.trans henabled)
  obtain ⟨-, hversion, -⟩ := h.valid.checked.coordinates key entry hentry
  rw [PluginLockfile.active, hactive]
  refine Option.filter_eq_some_iff.mpr ⟨rfl, decide_eq_true fun hempty ↦ ?_⟩
  rw [hempty] at hversion
  exact absurd hversion (by decide)

/-- **The lockfile is sound** after every run on a file that can be read. -/
theorem sound_of_reads (h : ∃ lock, file.Reads lock) (calls : List LockCall) :
    (file.run calls).Sound := by
  obtain ⟨start, hstart⟩ := h
  obtain ⟨lock₀, hreads₀, -⟩ := hstart.run calls
  generalize file.run calls = file at hreads₀
  refine ⟨⟨lock₀, hreads₀⟩, fun c ↦ ?_, fun lock hreads key entry hentry henabled ↦
    hreads.active_of_enabled hentry henabled, ?_, fun lock hreads calls lock' hreads' id ↦ ?_,
    ?_, ?_, ?_⟩
  · rcases hreads₀.call c with hfails | ⟨written, answer, -, hends⟩
    · exact Or.inl hfails
    · obtain ⟨lock', hreads', -⟩ := hreads₀.step c
      refine Or.inr ⟨answer, lock', ?_, hreads'⟩
      rw [LockText.step]
      rcases hends with ⟨-, hrun⟩ | ⟨_, -, -, hrun⟩ <;> rw [hrun]
  · intro lock hreads key entry key' entry' hentry hentry' henabled henabled' hid
    have hactive := hreads.active_of_enabled hentry henabled
    rw [hid, hreads.active_of_enabled hentry' henabled'] at hactive
    rw [(hreads.valid.checked.coordinates key entry hentry).2.2,
      (hreads.valid.checked.coordinates key' entry' hentry').2.2, hid, Option.some.inj hactive]
  · obtain ⟨last, hlast, hle⟩ := hreads.run calls
    obtain rfl := hlast.eq hreads'
    exact hle id
  · intro lock id file₁ file₂ lock₂ hreads hactive h₁ h₂ hreads₂
    obtain ⟨lock₁, answer₁, hchange₁, hvalid₁, hreads₁⟩ := hreads.rollback h₁
    obtain ⟨_, answer₂, hchange₂, -, hlast⟩ := hreads₁.rollback h₂
    obtain rfl := hlast.eq hreads₂
    exact rollback_rollback hreads.valid hvalid₁ hactive hchange₁ hchange₂
  · intro lock id file₁ lock₁ version file₂ lock₂ hreads hne h₁ hreads₁ hresume h₂ hreads₂
    obtain ⟨_, answer₁, hchange₁, -, hmid⟩ := hreads.writes (fun _ _ hchange ↦ by
      obtain ⟨_, _, lock', -, -, hwritten, -⟩ := disable_eq_ok hchange
      exact ⟨lock', hwritten⟩) h₁
    obtain rfl := hmid.eq hreads₁
    obtain ⟨_, answer₂, hchange₂, -, hlast⟩ := hreads₁.writes (fun _ _ hchange ↦ by
      obtain ⟨lock', hwritten, -⟩ := activate_eq_ok hchange
      exact ⟨lock', hwritten⟩) h₂
    obtain rfl := hlast.eq hreads₂
    exact activate_disable hne hchange₁ hresume hchange₂
  · intro lock id version s hreads hkept
    rw [LockText.step]
    rcases hreads.call ⟨.uninstall id version, s⟩ with ⟨halt, hrun⟩ |
      ⟨written, answer, hchange, ⟨-, hrun⟩ | ⟨lock', hsome, -, -⟩⟩
    · rw [hrun]
    · rw [hrun]
    · exact absurd ((uninstall_eq_ok hkept hchange).symm.trans hsome) nofun

/-! ## Runs of one plugin -/

/-- A version of the plugin of the runs below. -/
def packageOf (version : String) (enabled : Bool) : PluginLockEntry where
  id := js "example.fixture"
  version := js version
  source := js "/plugins"
  digest := List.replicate 64 97
  installedAt := js "2026-01-01T00:00:00.000Z"
  trust := .isolated
  grantedPermissions := {}
  enabled := enabled
  installState := some .verified

/-- Two versions of it, of which the first may be enabled. -/
def twoVersions (enabled : Bool) : OrderedMap JsString PluginLockEntry :=
  (OrderedMap.empty.set (js "example.fixture@1.0.0") (packageOf "1.0.0" enabled)).set
    (js "example.fixture@2.0.0") (packageOf "2.0.0" false)

/-- A lockfile of the time before activations. -/
def legacyFile : LockText := .holds (twoVersions true) none none

/-- A lockfile with a record of the activations of the plugin. -/
def fileOf (enabled : Bool) (activation : PluginActivationRecord) : LockText :=
  .holds (twoVersions enabled) (some (OrderedMap.empty.set (js "example.fixture") activation)) none

theorem exists_reads {β : Type*} (file : LockText) (f : PluginLockfile → β) {b : β}
    (h : (readText file).toOption.map f = some b) : ∃ lock, file.Reads lock ∧ f lock = b := by
  rcases hread : readText file with e | lock
  · rw [hread] at h
    exact absurd h nofun
  · rw [hread] at h
    exact ⟨lock, hread, Option.some.inj h⟩

theorem performs_step (file : LockText) (operation : LockOperation)
    (h : ((LockCall.program ⟨operation, {}⟩).run file).1.toOption.isSome = true) :
    file.Performs operation (file.step ⟨operation, {}⟩) := by
  rcases hrun : (LockCall.program ⟨operation, {}⟩).run file with ⟨halt | answer, file'⟩
  · rw [hrun] at h
    exact absurd h nofun
  · exact ⟨{}, answer, by rw [LockText.step, hrun]⟩

/-- The second version is activated, disabling it fails, and the first one is uninstalled. -/
theorem sound_legacy :
    (legacyFile.run [⟨.activate (js "example.fixture") (js "2.0.0"), {}⟩,
      ⟨.disable (js "example.fixture"), { rename := .fails }⟩,
      ⟨.uninstall (js "example.fixture") (js "1.0.0"), {}⟩]).Sound :=
  sound_of_reads (by
    obtain ⟨lock, hreads, -⟩ := exists_reads legacyFile
      (fun lock ↦ lock.generation (js "example.fixture")) (b := 1) (by decide +kernel)
    exact ⟨lock, hreads⟩) _

/-- The plugin is disabled; it was upgraded to its second version before. -/
def disabledFile : LockText :=
  fileOf false
    { previousVersion := some (js "1.0.0"), resumeVersion := some (js "2.0.0"), generation := 3 }

/-- The first version is active, and it is what a rollback would go back to. -/
def loopedFile : LockText :=
  fileOf true
    { activeVersion := some (js "1.0.0"), previousVersion := some (js "1.0.0"), generation := 1 }

/-- Two operations on a file that can be read do not restore what there was. -/
def Spoils (file : LockText) (id : JsString) (first second : LockOperation) : Prop :=
  ∃ lock file₁ file₂ lock₂, file.Reads lock ∧ file.Performs first file₁ ∧
    file₁.Performs second file₂ ∧ file₂.Reads lock₂ ∧ ¬lock.Restored lock₂ id

theorem spoils_of {id : JsString} {first second : LockOperation}
    (before after : Option JsString × Option JsString) (hne : before ≠ after)
    (hbefore : (readText file).toOption.map (fun lock ↦ (lock.active id, lock.previous id)) =
      some before)
    (h₁ : ((LockCall.program ⟨first, {}⟩).run file).1.toOption.isSome = true)
    (h₂ : ((LockCall.program ⟨second, {}⟩).run (file.step ⟨first, {}⟩)).1.toOption.isSome = true)
    (hafter : (readText ((file.step ⟨first, {}⟩).step ⟨second, {}⟩)).toOption.map
      (fun lock ↦ (lock.active id, lock.previous id)) = some after) :
    file.Spoils id first second := by
  obtain ⟨lock, hreads, rfl⟩ := exists_reads _ _ hbefore
  obtain ⟨lock₂, hreads₂, rfl⟩ := exists_reads _ _ hafter
  exact ⟨lock, _, _, lock₂, hreads, performs_step _ _ h₁, performs_step _ _ h₂, hreads₂,
    fun hrestored ↦ hne (Prod.ext hrestored.1.symm hrestored.2.symm)⟩

/-- Nothing was active, and after two rollbacks the second version is; and what a rollback would go
back to is forgotten when it is the version that is disabled. -/
theorem not_restored :
    disabledFile.Spoils (js "example.fixture") (.rollback (js "example.fixture"))
        (.rollback (js "example.fixture")) ∧
      loopedFile.Spoils (js "example.fixture") (.disable (js "example.fixture"))
        (.activate (js "example.fixture") (js "1.0.0")) :=
  ⟨spoils_of (none, some (js "1.0.0")) (some (js "2.0.0"), some (js "1.0.0"))
      (by decide) (by decide +kernel) (by decide +kernel) (by decide +kernel) (by decide +kernel),
    spoils_of (some (js "1.0.0"), some (js "1.0.0")) (some (js "1.0.0"), none)
      (by decide) (by decide +kernel) (by decide +kernel) (by decide +kernel) (by decide +kernel)⟩

end LockText

end LiteHarness.Plugins
