import LiteHarness.Platform.Runtime
import LiteHarness.Storage.EventText
import LiteHarness.Workspace.Snapshots

/-!
# What a crash leaves of the snapshots

Whatever becomes of the operations of a `create`, the generations are left such that `restore` gives
the archive it gave before, or the new one; where the call returns it gives the new one
(`create_recovers`). There is one exception: rotation takes a generation it fails to read for a
damaged one, and removes it. When the reason is a passing error of the file system, the last good
generation is gone before the new one is in place (`not_recovers_removed`).
-/

namespace LiteHarness.Workspace

open Foundation Foundation.Eff

variable (C : NodeCrypto) (O : SnapshotOptions) (workspaceId : JsString)

/-! ## The property -/

/-- The archive `restore` returns. -/
def restored (d : Snapshots) : Option Bytes := (restore C O workspaceId d).map Prod.fst

/-- A history of the store: the files, the archives of the last completed call and of those that
were interrupted since, and whether a call has completed. -/
structure SnapshotHistory where
  files : Snapshots := fun _ ↦ none
  candidates : List Bytes := []
  completed : Bool := false

/-- One call of `create`. -/
def SnapshotHistory.step (s : SnapshotHistory) (call : CreateCall) : SnapshotHistory :=
  match (create C O workspaceId call).run s.files with
  | (.ok _, files) => ⟨files, [call.archive], true⟩
  | (.error _, files) => ⟨files, s.candidates ++ [call.archive], s.completed⟩

/-- The store after a history. -/
def SnapshotHistory.after (history : List CreateCall) : SnapshotHistory :=
  history.foldl (SnapshotHistory.step C O workspaceId) {}

/-- Nothing goes wrong in a call. -/
def CreateCall.Faultless (call : CreateCall) : Prop := ∀ point, call.faults point = .succeeds

/-- What the store promises after a history. -/
structure Recovers (s : SnapshotHistory) : Prop where
  /-- What is restored is the archive of the last completed call, or of one that was interrupted
  since. -/
  recent : ∀ archive, restored C O workspaceId s.files = some archive → archive ∈ s.candidates
  /-- When a call has completed there is something to restore. -/
  available : s.completed = true → (restored C O workspaceId s.files).isSome = true
  /-- A call in which nothing goes wrong completes, and what it was given is restored. -/
  exact : ∀ call : CreateCall, call.Faultless → call.archive.length ≤ O.maxArchiveBytes →
    SnapshotHost C (O.keys.getKey workspaceId) call.nonce (newHeader C O workspaceId call)
      call.archive →
    SnapshotFits C O workspaceId (O.keys.getKey workspaceId) call.nonce
      (newHeader C O workspaceId call) call.archive →
      (∃ record, ((create C O workspaceId call).run s.files).1 = .ok record) ∧
        restored C O workspaceId ((create C O workspaceId call).run s.files).2 =
          some call.archive

/-! ## The condition -/

/-- Rotation does not fail to read a generation that can be read. -/
def Careful (s : SnapshotHistory) (call : CreateCall) : Prop :=
  call.faults .readCurrent = .fails → archiveOf C O workspaceId s.files .current = none

instance (s : SnapshotHistory) : DecidablePred (Careful C O workspaceId s) := fun _ ↦
  inferInstanceAs (Decidable (_ → _))

/-! ## What is restored -/

variable {C O workspaceId} {d : Snapshots} {r : Option Bytes}

theorem restored_eq : restored C O workspaceId d =
    (archiveOf C O workspaceId d .current <|>
      (archiveOf C O workspaceId d .previous <|> archiveOf C O workspaceId d .previousBackup)) := by
  unfold restored restore
  cases archiveOf C O workspaceId d .current with
  | some archive => rfl
  | none =>
    cases archiveOf C O workspaceId d .previous with
    | some archive => rfl
    | none => cases archiveOf C O workspaceId d .previousBackup <;> rfl

theorem archiveOf_of_some {name : SnapshotFile} {file : Bytes} (h : d name = some file) :
    archiveOf C O workspaceId d name = readSnapshot C O workspaceId file := by
  rw [archiveOf, h, Option.bind_some]

theorem archiveOf_of_none {name : SnapshotFile} (h : d name = none) :
    archiveOf C O workspaceId d name = none := by
  rw [archiveOf, h, Option.bind_none]

theorem archiveOf_update_of_ne {name target : SnapshotFile} {content : Option Bytes}
    (h : name ≠ target) : archiveOf C O workspaceId (Function.update d target content) name =
      archiveOf C O workspaceId d name := by
  rw [archiveOf, archiveOf, Function.update_of_ne h]

theorem archiveOf_update_self {target : SnapshotFile} {content : Option Bytes} :
    archiveOf C O workspaceId (Function.update d target content) target =
      content.bind (readSnapshot C O workspaceId) := by
  rw [archiveOf, Function.update_self]

/-- The staging file is never restored. -/
theorem restored_update_staging (content : Option Bytes) :
    restored C O workspaceId (Function.update d .staging content) =
      restored C O workspaceId d := by
  rw [restored_eq, restored_eq, archiveOf_update_of_ne (by decide),
    archiveOf_update_of_ne (by decide), archiveOf_update_of_ne (by decide)]

/-- A current generation that can be read is the one that is restored. -/
theorem restored_of_current {archive : Bytes}
    (h : archiveOf C O workspaceId d .current = some archive) :
    restored C O workspaceId d = some archive := by
  rw [restored_eq, h]
  rfl

/-- Where the current generation cannot be read, the others are restored. -/
theorem restored_remove_current (h : archiveOf C O workspaceId d .current = none) :
    restored C O workspaceId (Function.update d .current none) = restored C O workspaceId d := by
  rw [restored_eq, restored_eq, h, archiveOf_update_self, archiveOf_update_of_ne (by decide),
    archiveOf_update_of_ne (by decide)]
  rfl

/-! ## One call -/

/-- What holds when a call does not return: something has gone wrong, or the staged file could not
be read back; and nothing is restored but what was restored before, or the new archive. -/
def Interrupted (C : NodeCrypto) (O : SnapshotOptions) (workspaceId : JsString) (call : CreateCall)
    (r : Option Bytes) (d : Snapshots) : Prop :=
  (call.Faultless → call.archive.length ≤ O.maxArchiveBytes →
    readSnapshot C O workspaceId (stagedFile C O workspaceId call) = some call.archive → False) ∧
  (restored C O workspaceId d = r ∨ restored C O workspaceId d = some call.archive)

/-- Before the rotation: the staging file is being made. -/
def Staging (C : NodeCrypto) (O : SnapshotOptions) (workspaceId : JsString) (call : CreateCall)
    (r : Option Bytes) (d : Snapshots) : Prop :=
  restored C O workspaceId d = r ∧
    (call.faults .readCurrent = .fails → archiveOf C O workspaceId d .current = none)

/-- The staging file is complete, and can be read. -/
def Staged (C : NodeCrypto) (O : SnapshotOptions) (workspaceId : JsString) (call : CreateCall)
    (d : Snapshots) : Prop :=
  archiveOf C O workspaceId d .staging = some call.archive

variable {call : CreateCall}

theorem Staging.update_staging (h : Staging C O workspaceId call r d) (content : Option Bytes) :
    Staging C O workspaceId call r (Function.update d .staging content) :=
  ⟨(restored_update_staging content).trans h.1, fun hfails ↦
    (archiveOf_update_of_ne (by decide)).trans (h.2 hfails)⟩

/-- A fault of the call, before anything is restored differently. -/
theorem interrupted_of_fault {point : CreatePoint} {outcome : Outcome}
    (hpoint : call.faults point = outcome) (hne : outcome ≠ .succeeds)
    (h : restored C O workspaceId d = r ∨ restored C O workspaceId d = some call.archive) :
    Interrupted C O workspaceId call r d :=
  ⟨fun hfaultless _ _ ↦ hne (hpoint.symm.trans (hfaultless point)), h⟩

/-- A part of a call that returns with `q`, or is interrupted. -/
def Ends {α : Type} (C : NodeCrypto) (O : SnapshotOptions) (workspaceId : JsString)
    (call : CreateCall) (r : Option Bytes) (q : α → Snapshots → Prop) :
    Except (Halt (FileError JsString)) α → Snapshots → Prop
  | .ok a, d => q a d
  | .error _, d => Interrupted C O workspaceId call r d

/-- One part after another. -/
theorem Ends.bind {α β : Type} {p : Snapshots → Prop} {q : α → Snapshots → Prop}
    {q' : β → Snapshots → Prop} {m : SnapshotProgram α} {f : α → SnapshotProgram β}
    (hm : Triple p m (Ends C O workspaceId call r q))
    (hf : ∀ a, Triple (q a) (f a) (Ends C O workspaceId call r q')) :
    Triple p (m >>= f) (Ends C O workspaceId call r q') :=
  Triple.bind hm hf fun _ _ h ↦ h

/-- A part that leaves the files alone. -/
theorem Ends.pass {p : Snapshots → Prop} {point : CreatePoint}
    (hp : ∀ d, p d → restored C O workspaceId d = r ∨
      restored C O workspaceId d = some call.archive) :
    Triple p (Files.pass (call.faults point)) (Ends C O workspaceId call r fun _ ↦ p) :=
  Files.triple_pass (fun _ _ h ↦ h)
    (fun ho d h ↦ interrupted_of_fault ho (by decide) (hp d h))
    fun ho d h ↦ interrupted_of_fault ho (by decide) (hp d h)

/-- A cleanup that removes the staging file. -/
theorem triple_removeStaging {point : CreatePoint} :
    Triple (Interrupted C O workspaceId call r) (Files.remove (call.faults point) .staging)
      fun (_ : Except (Halt (FileError JsString)) PUnit) d ↦
        Interrupted C O workspaceId call r d := by
  refine Files.triple_remove (fun _ d h ↦ ⟨h.1, ?_⟩) (fun _ _ h ↦ h) fun _ _ h ↦ h
  rw [restored_update_staging]
  exact h.2

theorem triple_writeStaging : Triple (Staging C O workspaceId call r)
    (writeStaging C O workspaceId call) (Ends C O workspaceId call r fun _ d ↦
      Staging C O workspaceId call r d ∧ d .staging = some (stagedFile C O workspaceId call)) := by
  refine Ends.bind (q := fun _ ↦ Staging C O workspaceId call r) ?_ fun _ ↦ ?_
  · exact Files.triple_write (fun _ d h ↦ h.update_staging _)
      (fun ho d h ↦ interrupted_of_fault ho (by decide) (Or.inl h.1))
      fun ho d h ↦ interrupted_of_fault ho (by decide) (Or.inl h.1)
  · refine Triple.rescue (r := Ends C O workspaceId call r fun _ d ↦
      Staging C O workspaceId call r d ∧ d .staging = some (stagedFile C O workspaceId call))
      ?_ (fun _ _ h ↦ h) (fun e ↦ ?_) fun _ h ↦ h
    · exact Files.triple_write (fun _ d h ↦ ⟨h.update_staging _, Function.update_self ..⟩)
        (fun ho d h ↦ interrupted_of_fault ho (by decide) (Or.inl h.1))
        fun ho d h ↦ interrupted_of_fault ho (by decide) (Or.inl h.1)
    · exact Triple.bind triple_removeStaging (fun _ ↦ Triple.throw fun _ h ↦ h) fun _ _ h ↦ h

/-- A staging file that has been read back holds the archive of the call. -/
theorem triple_verify (hsha : Function.Injective C.sha256) :
    Triple (fun d ↦ Staging C O workspaceId call r d ∧
        d .staging = some (stagedFile C O workspaceId call))
      (verifySnapshotBeforeRotation C O workspaceId call)
      (Ends C O workspaceId call r fun _ d ↦
        Staging C O workspaceId call r d ∧ Staged C O workspaceId call d) := by
  refine Ends.bind (q := fun archive d ↦ Staging C O workspaceId call r d ∧
    archiveOf C O workspaceId d .staging = some archive ∧
    d .staging = some (stagedFile C O workspaceId call)) ?_ fun archive ↦ ?_
  · refine Ends.bind (q := fun file d ↦ Staging C O workspaceId call r d ∧
      file = stagedFile C O workspaceId call ∧ d .staging = some file) ?_ fun file ↦ ?_
    · refine Files.triple_read (fun _ d h content hcontent ↦ ?_) (fun _ d h hnone ↦ ?_)
        (fun ho d h ↦ interrupted_of_fault ho (by decide) (Or.inl h.1.1))
        fun ho d h ↦ interrupted_of_fault ho (by decide) (Or.inl h.1.1)
      · exact ⟨h.1, Option.some.inj (hcontent.symm.trans h.2), hcontent⟩
      · exact absurd (hnone.symm.trans h.2) nofun
    · cases hread : readSnapshot C O workspaceId file with
      | some archive =>
        exact Triple.pure fun d h ↦
          ⟨h.1, (archiveOf_of_some h.2.2).trans hread, h.2.1 ▸ h.2.2⟩
      | none =>
        refine Triple.throw fun d h ↦ ⟨fun _ _ hreadable ↦ ?_, Or.inl h.1.1⟩
        rw [h.2.1] at hread
        exact absurd (hread.symm.trans hreadable) nofun
  · refine Triple.ite (fun hne ↦ Triple.throw fun d h ↦ ⟨fun _ _ hreadable ↦ ?_, Or.inl h.1.1⟩)
      fun heq ↦ Triple.pure fun d h ↦ ⟨h.1, ?_⟩
    · rw [archiveOf_of_some h.2.2] at h
      exact hne (congrArg C.sha256 (Option.some.inj (h.2.1.symm.trans hreadable)))
    · rw [Staged, h.2.1]
      exact congrArg some (hsha (not_not.mp heq))

theorem Staged.update (h : Staged C O workspaceId call d) {name : SnapshotFile}
    (hname : SnapshotFile.staging ≠ name) (content : Option Bytes) :
    Staged C O workspaceId call (Function.update d name content) :=
  (archiveOf_update_of_ne hname).trans h

/-- Reading a generation: what is wrong with it when nothing is wrong with the reading. -/
theorem triple_readCurrent :
    Triple (fun d ↦ Staging C O workspaceId call r d ∧ Staged C O workspaceId call d)
      (readArchive C O workspaceId (call.faults .readCurrent) .current) fun c d ↦
      match c with
      | .ok _ => (restored C O workspaceId d = r ∧ Staged C O workspaceId call d) ∧
          (archiveOf C O workspaceId d .current).isSome = true
      | .error (.threw _) => (restored C O workspaceId d = r ∧ Staged C O workspaceId call d) ∧
          archiveOf C O workspaceId d .current = none
      | .error .died => Interrupted C O workspaceId call r d := by
  unfold readArchive
  refine Triple.bind (r := fun c d ↦
    match c with
    | .ok file => (restored C O workspaceId d = r ∧ Staged C O workspaceId call d) ∧
        d .current = some file
    | .error (.threw _) => (restored C O workspaceId d = r ∧ Staged C O workspaceId call d) ∧
        archiveOf C O workspaceId d .current = none
    | .error .died => Interrupted C O workspaceId call r d) ?_ (fun file ↦ ?_) ?_
  · refine Files.triple_read (fun _ d h content hcontent ↦ ⟨⟨h.1.1, h.2⟩, hcontent⟩)
      (fun _ d h hnone ↦ ⟨⟨h.1.1, h.2⟩, ?_⟩) (fun ho d h ↦ ⟨⟨h.1.1, h.2⟩, h.1.2 ho⟩)
      fun ho d h ↦ interrupted_of_fault ho (by decide) (Or.inl h.1.1)
    exact archiveOf_of_none hnone
  · cases hread : readSnapshot C O workspaceId file with
    | some archive =>
      refine Triple.pure fun d h ↦ ⟨h.1, ?_⟩
      rw [archiveOf_of_some h.2]
      exact Option.isSome_iff_exists.mpr ⟨archive, hread⟩
    | none =>
      exact Triple.throw fun d h ↦ ⟨h.1, (archiveOf_of_some h.2).trans hread⟩
  · intro halt d h
    cases halt with
    | died => exact h
    | threw e => exact h

theorem triple_currentIsValid :
    Triple (fun d ↦ Staging C O workspaceId call r d ∧ Staged C O workspaceId call d)
      (currentIsValid C O workspaceId call.faults) (Ends C O workspaceId call r fun valid d ↦
        (restored C O workspaceId d = r ∧ Staged C O workspaceId call d) ∧
          (valid = true → (archiveOf C O workspaceId d .current).isSome = true)) := by
  refine Triple.rescue (r := fun c d ↦
    match c with
    | .ok valid => (restored C O workspaceId d = r ∧ Staged C O workspaceId call d) ∧
        (valid = true → (archiveOf C O workspaceId d .current).isSome = true)
    | .error (.threw _) => (restored C O workspaceId d = r ∧ Staged C O workspaceId call d) ∧
        archiveOf C O workspaceId d .current = none
    | .error .died => Interrupted C O workspaceId call r d) ?_ (fun _ _ h ↦ h) (fun e ↦ ?_)
    fun _ h ↦ h
  · refine Triple.bind triple_readCurrent (fun archive ↦ ?_) fun halt d h ↦ ?_
    · exact Triple.pure fun d h ↦ ⟨h.1, fun _ ↦ h.2⟩
    · cases halt with
      | died => exact h
      | threw e => exact h
  · refine Ends.bind (q := fun _ d ↦ restored C O workspaceId d = r ∧
      Staged C O workspaceId call d) ?_ fun _ ↦ ?_
    swap
    · exact Triple.pure fun d h ↦ ⟨h, fun hvalid ↦ absurd hvalid (by decide)⟩
    have hremove : Triple (fun d ↦ (restored C O workspaceId d = r ∧
        Staged C O workspaceId call d) ∧ archiveOf C O workspaceId d .current = none)
        (Files.remove (call.faults .removeCurrent) .current)
        (Ends C O workspaceId call r fun (_ : PUnit) d ↦ restored C O workspaceId d = r ∧
          Staged C O workspaceId call d) :=
      Files.triple_remove
        (fun _ d h ↦ ⟨(restored_remove_current h.2).trans h.1.1, h.1.2.update (by decide) _⟩)
        (fun ho d h ↦ interrupted_of_fault ho (by decide) (Or.inl h.1.1))
        fun ho d h ↦ interrupted_of_fault ho (by decide) (Or.inl h.1.1)
    cases e with
    | missing => exact Triple.pure fun d h ↦ h.1
    | failed => exact hremove
    | thrown message => exact hremove

/-- The current generation can be read, and the new one is staged. -/
def Rotating (C : NodeCrypto) (O : SnapshotOptions) (workspaceId : JsString) (call : CreateCall)
    (r : Option Bytes) (d : Snapshots) : Prop :=
  (∃ archive, archiveOf C O workspaceId d .current = some archive ∧ r = some archive) ∧
    Staged C O workspaceId call d

theorem Rotating.kept (h : Rotating C O workspaceId call r d) :
    restored C O workspaceId d = r := by
  obtain ⟨⟨archive, hcurrent, rfl⟩, -⟩ := h
  exact restored_of_current hcurrent

theorem Rotating.interrupted (h : Rotating C O workspaceId call r d) {point : CreatePoint}
    {outcome : Outcome} (hpoint : call.faults point = outcome) (hne : outcome ≠ .succeeds) :
    Interrupted C O workspaceId call r d :=
  interrupted_of_fault hpoint hne (Or.inl h.kept)

/-- The older generations can be moved and removed. -/
theorem Rotating.update (h : Rotating C O workspaceId call r d) {name : SnapshotFile}
    (hcurrent : SnapshotFile.current ≠ name) (hstaging : SnapshotFile.staging ≠ name)
    (content : Option Bytes) :
    Rotating C O workspaceId call r (Function.update d name content) := by
  obtain ⟨⟨archive, harchive, heq⟩, hstaged⟩ := h
  exact ⟨⟨archive, (archiveOf_update_of_ne hcurrent).trans harchive, heq⟩,
    hstaged.update hstaging content⟩

/-- The current generation becomes the previous one. -/
theorem Rotating.moved (h : Rotating C O workspaceId call r d) {file : Bytes}
    (hfile : d .current = some file) :
    restored C O workspaceId (Function.update (Function.update d .current none) .previous
        (some file)) = r ∧
      Staged C O workspaceId call (Function.update (Function.update d .current none) .previous
        (some file)) := by
  obtain ⟨⟨archive, harchive, rfl⟩, hstaged⟩ := h
  refine ⟨?_, (hstaged.update (by decide) _).update (by decide) _⟩
  have hread : readSnapshot C O workspaceId file = some archive :=
    (archiveOf_of_some hfile).symm.trans harchive
  rw [restored_eq, archiveOf_update_of_ne (by decide), archiveOf_update_self,
    archiveOf_update_self, Option.bind_none, Option.bind_some, hread]
  rfl

/-- What holds behind the move of the current generation's predecessor, which may be missing. -/
def MovedAway {α : Type} (C : NodeCrypto) (O : SnapshotOptions) (workspaceId : JsString)
    (call : CreateCall) (r : Option Bytes) :
    Except (Halt (FileError JsString)) α → Snapshots → Prop
  | .ok _, d => Rotating C O workspaceId call r d
  | .error (.threw .missing), d => Rotating C O workspaceId call r d
  | .error _, d => Interrupted C O workspaceId call r d

/-- What holds behind the last rename, which leaves the current generation in its place when it
fails. -/
def MovedCurrent (C : NodeCrypto) (O : SnapshotOptions) (workspaceId : JsString)
    (call : CreateCall) (r : Option Bytes) :
    Except (Halt (FileError JsString)) Unit → Snapshots → Prop
  | .ok _, d => restored C O workspaceId d = r ∧ Staged C O workspaceId call d
  | .error _, d => Rotating C O workspaceId call r d ∧ Interrupted C O workspaceId call r d

theorem triple_rotate : Triple (Rotating C O workspaceId call r) (rotate call.faults)
    (Ends C O workspaceId call r fun _ d ↦
      restored C O workspaceId d = r ∧ Staged C O workspaceId call d) := by
  refine Ends.bind (q := fun _ ↦ Rotating C O workspaceId call r) ?_ fun _ ↦ ?_
  · exact Files.triple_remove (fun _ d h ↦ h.update (by decide) (by decide) _)
      (fun ho d h ↦ h.interrupted ho (by decide)) fun ho d h ↦ h.interrupted ho (by decide)
  refine Ends.bind (q := fun _ ↦ Rotating C O workspaceId call r) ?_ fun moved ↦ ?_
  · refine Triple.rescue (r := MovedAway C O workspaceId call r) ?_ (fun _ _ h ↦ h) (fun e ↦ ?_)
      fun _ h ↦ h
    · refine Triple.bind (r := MovedAway C O workspaceId call r) ?_
        (fun _ ↦ Triple.pure fun d h ↦ h) fun halt d h ↦ ?_
      swap
      · rcases halt with _ | e
        · exact h
        · cases e <;> exact h
      refine Files.triple_rename (fun _ d h content _ ↦ ?_) (fun _ d h _ ↦ h)
        (fun ho d h ↦ h.interrupted ho (by decide)) fun ho d h ↦ h.interrupted ho (by decide)
      exact (h.update (by decide) (by decide) _).update (by decide) (by decide) _
    · cases e with
      | missing => exact Triple.pure fun d h ↦ h
      | failed => exact Triple.throw fun d h ↦ h
      | thrown message => exact Triple.throw fun d h ↦ h
  · refine Triple.rescue (r := MovedCurrent C O workspaceId call r) ?_ (fun _ _ h ↦ h)
      (fun e ↦ ?_) fun _ h ↦ h.2
    · refine Files.triple_rename (fun _ d h content hcontent ↦ h.moved hcontent)
        (fun _ d h hnone ↦ ?_) (fun ho d h ↦ ⟨h, h.interrupted ho (by decide)⟩)
        fun ho d h ↦ ⟨h, h.interrupted ho (by decide)⟩
      obtain ⟨⟨archive, harchive, -⟩, -⟩ := h
      exact absurd ((archiveOf_of_none hnone).symm.trans harchive).symm (Option.some_ne_none _)
    · have hthrow : ∀ (e : FileError JsString), Triple (Interrupted C O workspaceId call r)
          (throw (.threw e) : SnapshotProgram Unit) (Ends C O workspaceId call r fun _ d ↦
            restored C O workspaceId d = r ∧ Staged C O workspaceId call d) :=
        fun e ↦ Triple.throw fun _ h ↦ h
      refine Ends.bind (q := fun _ ↦ Interrupted C O workspaceId call r) ?_ fun _ ↦ hthrow e
      refine Triple.ite (fun _ ↦ ?_) fun _ ↦ Triple.pure fun d h ↦ h.2
      refine Triple.rescue (r := fun _ ↦ Interrupted C O workspaceId call r) ?_ (fun _ _ h ↦ h)
        (fun _ ↦ Triple.pure fun _ h ↦ h) fun _ h ↦ h
      refine Files.triple_rename (fun _ d h content _ ↦ ⟨h.2.1, Or.inl ?_⟩) (fun _ _ h _ ↦ h.2)
        (fun _ _ h ↦ h.2) fun _ _ h ↦ h.2
      exact ((h.1.update (by decide) (by decide) _).update (by decide) (by decide) _).kept

theorem triple_rotateVerifiedSnapshots :
    Triple (fun d ↦ Staging C O workspaceId call r d ∧ Staged C O workspaceId call d)
      (rotateVerifiedSnapshots C O workspaceId call.faults) (Ends C O workspaceId call r fun _ d ↦
        restored C O workspaceId d = r ∧ Staged C O workspaceId call d) := by
  refine Ends.bind triple_currentIsValid fun valid ↦ ?_
  refine Triple.ite (fun hvalid ↦ triple_rotate.weaken (fun d h ↦ ⟨?_, h.1.2⟩) fun _ _ h ↦ h)
    fun _ ↦ Triple.pure fun d h ↦ h.1
  obtain ⟨archive, harchive⟩ := Option.isSome_iff_exists.mp (h.2 hvalid)
  exact ⟨archive, harchive, h.1.1.symm.trans (restored_of_current harchive)⟩

/-- The staging file becomes the current generation. -/
theorem triple_promote :
    Triple (fun d ↦ restored C O workspaceId d = r ∧ Staged C O workspaceId call d)
      (Files.rename (call.faults .promote) .staging .current)
      (Ends C O workspaceId call r fun (_ : PUnit) d ↦
        archiveOf C O workspaceId d .current = some call.archive) := by
  refine Files.triple_rename (fun _ d h content hcontent ↦ ?_) (fun _ d h hnone ↦ ?_)
    (fun ho d h ↦ interrupted_of_fault ho (by decide) (Or.inl h.1))
    fun ho d h ↦ interrupted_of_fault ho (by decide) (Or.inl h.1)
  · have hself : archiveOf C O workspaceId (Function.update (Function.update d .staging none)
        .current (some content)) .current = readSnapshot C O workspaceId content :=
      archiveOf_of_some (Function.update_self ..)
    exact hself.trans ((archiveOf_of_some hcontent).symm.trans h.2)
  · exact absurd ((archiveOf_of_none hnone).symm.trans h.2) nofun

/-- **One call.** Where it returns the new archive is restored, and where it does not the one of
before or the new one. -/
theorem triple_create (hsha : Function.Injective C.sha256) :
    Triple (Staging C O workspaceId call r) (create C O workspaceId call)
      (Ends C O workspaceId call r fun _ d ↦
        restored C O workspaceId d = some call.archive) := by
  have hpromoted : ∀ d, archiveOf C O workspaceId d .current = some call.archive →
      restored C O workspaceId d = some call.archive := fun _ ↦ restored_of_current
  refine Ends.bind (q := fun _ ↦ Staging C O workspaceId call r) ?_ fun _ ↦ ?_
  · refine Triple.ite (fun hlong ↦ Triple.throw fun d h ↦ ⟨fun _ hle _ ↦ ?_, Or.inl h.1⟩)
      fun _ ↦ Triple.pure fun _ h ↦ h
    exact absurd hle (Nat.not_le.mpr hlong)
  refine Ends.bind (Ends.pass fun d h ↦ Or.inl h.1) fun _ ↦ ?_
  refine Ends.bind (Ends.pass fun d h ↦ Or.inl h.1) fun _ ↦ ?_
  refine Ends.bind (q := fun _ d ↦ restored C O workspaceId d = some call.archive) ?_
    fun _ ↦ Triple.pure fun _ h ↦ h
  refine Triple.ensuring (r := Ends C O workspaceId call r fun (_ : PUnit) d ↦
    archiveOf C O workspaceId d .current = some call.archive) ?_ (fun _ ↦ ?_) (fun e ↦ ?_)
    fun _ h ↦ h
  · refine Ends.bind triple_writeStaging fun _ ↦ ?_
    refine Ends.bind (Ends.pass fun d h ↦ Or.inl h.1.1) fun _ ↦ ?_
    refine Ends.bind (triple_verify hsha) fun _ ↦ ?_
    refine Ends.bind (Ends.pass fun d h ↦ Or.inl h.1.1) fun _ ↦ ?_
    refine Ends.bind triple_rotateVerifiedSnapshots fun _ ↦ ?_
    refine Ends.bind (Ends.pass fun d h ↦ Or.inl h.1) fun _ ↦ ?_
    refine Ends.bind triple_promote fun _ ↦ ?_
    refine Ends.bind (Ends.pass fun d h ↦ Or.inr (hpromoted d h)) fun _ ↦ ?_
    refine Files.triple_remove (fun _ d h ↦ (archiveOf_update_of_ne (by decide)).trans h)
      (fun ho d h ↦ interrupted_of_fault ho (by decide) (Or.inr (hpromoted d h)))
      fun ho d h ↦ interrupted_of_fault ho (by decide) (Or.inr (hpromoted d h))
  · refine Files.triple_remove (fun _ d h ↦ ?_)
      (fun ho d h ↦ interrupted_of_fault ho (by decide) (Or.inr (hpromoted d h)))
      fun ho d h ↦ interrupted_of_fault ho (by decide) (Or.inr (hpromoted d h))
    exact (restored_update_staging none).trans (hpromoted d h)
  · refine triple_removeStaging.weaken (fun _ h ↦ h) fun c d h ↦ ?_
    cases c with
    | ok u => exact h
    | error halt => exact h

/-! ## Histories -/

/-- The archives that may be restored, as an invariant. -/
structure Recovering (C : NodeCrypto) (O : SnapshotOptions) (workspaceId : JsString)
    (s : SnapshotHistory) : Prop where
  recent : ∀ archive, restored C O workspaceId s.files = some archive → archive ∈ s.candidates
  available : s.completed = true → (restored C O workspaceId s.files).isSome = true

theorem Recovering.step {s : SnapshotHistory} (hsha : Function.Injective C.sha256)
    (h : Recovering C O workspaceId s) (hcareful : Careful C O workspaceId s call) :
    Recovering C O workspaceId (s.step C O workspaceId call) := by
  have hcall := triple_create hsha s.files ⟨rfl, hcareful⟩
  unfold SnapshotHistory.step
  rcases hrun : (create C O workspaceId call).run s.files with ⟨halt | record, files⟩
  · rw [hrun] at hcall
    obtain ⟨-, hkept | hnew⟩ := hcall
    · constructor
      · intro archive harchive
        exact List.mem_append_left _ (h.recent archive (hkept.symm.trans harchive))
      · intro hcompleted
        dsimp only
        rw [hkept]
        exact h.available hcompleted
    · constructor
      · intro archive harchive
        rw [← Option.some.inj (hnew.symm.trans harchive)]
        exact List.mem_append_right _ (List.mem_singleton_self _)
      · intro _
        dsimp only
        rw [hnew]
        rfl
  · rw [hrun] at hcall
    have hnew : restored C O workspaceId files = some call.archive := hcall
    constructor
    · intro archive harchive
      rw [← Option.some.inj (hnew.symm.trans harchive)]
      exact List.mem_singleton_self _
    · intro _
      dsimp only
      rw [hnew]
      rfl

theorem Recovering.recovers {s : SnapshotHistory} (hsha : Function.Injective C.sha256)
    (h : Recovering C O workspaceId s) : Recovers C O workspaceId s where
  recent := h.recent
  available := h.available
  exact := by
    intro call hfaultless hlimit hhost hfits
    have hcareful : call.faults .readCurrent = .fails →
        archiveOf C O workspaceId s.files .current = none := fun hfails ↦
      absurd ((hfaultless _).symm.trans hfails) (by decide)
    have hread : readSnapshot C O workspaceId (stagedFile C O workspaceId call) =
        some call.archive := readSnapshot_encode hhost hfits rfl rfl hlimit
    have hcall := triple_create hsha s.files ⟨rfl, hcareful⟩
    rcases hrun : (create C O workspaceId call).run s.files with ⟨halt | record, files⟩
    · rw [hrun] at hcall
      exact absurd hread fun hread ↦ hcall.1 hfaultless hlimit hread
    · rw [hrun] at hcall
      exact ⟨⟨record, rfl⟩, hcall⟩

/-- **Crash safety.** After every history of calls whose rotations do not fail to read a generation
that can be read, whatever else fails and wherever the process dies, `restore` returns the archive
of the last completed call or of one interrupted since, and it returns one when a call has
completed. -/
theorem snapshots_recover (hsha : Function.Injective C.sha256) {history : List CreateCall}
    (h : Throughout (SnapshotHistory.step C O workspaceId) (Careful C O workspaceId) {} history) :
    Recovers C O workspaceId (SnapshotHistory.after C O workspaceId history) := by
  have hinit : Recovering C O workspaceId {} := ⟨fun _ h ↦ absurd h nofun, fun h ↦ absurd h nofun⟩
  exact Recovering.recovers hsha (Throughout.induction (fun _ _ hs hok ↦ hs.step hsha hok) hinit h)

/-! ## Two histories -/

/-- A call that writes one byte. -/
def oneByte (b : UInt8) (faults : CreatePoint → Outcome) : CreateCall where
  archive := [b]
  nonce := List.replicate 12 b
  createdAt := js "2026-01-01T00:00:00.000Z"
  faults := faults

/-- The digests of the archives below. -/
def firstDigest : JsString :=
  js "4bf5122f344554c53bde2ebb8cd2b7e3d1600ad631c385a5d7cce23c7785459a"

def secondDigest : JsString :=
  js "dbc1b4c900ffe48d575b5da5c638040125f65db0fe3e24494b76ea986457d986"

def thirdDigest : JsString :=
  js "084fed08b978af4d7d196a7446a86b58009e636b611db16211b65a9aadff29c5"

/-- The digests of those archives, and texts of another form for all other ones. -/
def digestOf (bytes : Bytes) : JsString :=
  if bytes = [1] then firstDigest else if bytes = [2] then secondDigest
  else if bytes = [3] then thirdDigest else 120 :: bytes.map UInt8.toUInt16

theorem digestOf_injective : Function.Injective digestOf := by
  let ofDigest : JsString → Bytes := fun s ↦
    if s = firstDigest then [1] else if s = secondDigest then [2]
    else if s = thirdDigest then [3] else s.tail.map UInt16.toUInt8
  have hother : ∀ (s w : JsString), s.head? ≠ some 120 → 120 :: w ≠ s := by
    rintro s w hs rfl
    exact hs rfl
  refine Function.LeftInverse.injective (g := ofDigest) fun bytes ↦ ?_
  by_cases h₁ : bytes = [1]
  · rw [h₁]
    decide
  by_cases h₂ : bytes = [2]
  · rw [h₂]
    decide
  by_cases h₃ : bytes = [3]
  · rw [h₃]
    decide
  have hdigest : digestOf bytes = 120 :: bytes.map UInt8.toUInt16 := by
    rw [digestOf, if_neg h₁, if_neg h₂, if_neg h₃]
  rw [hdigest]
  dsimp only [ofDigest]
  rw [if_neg (hother _ _ (by decide)), if_neg (hother _ _ (by decide)),
    if_neg (hother _ _ (by decide)), List.tail_cons, List.map_map]
  have hround : UInt16.toUInt8 ∘ UInt8.toUInt16 = id := by
    funext b
    exact UInt8.toUInt8_toUInt16 b
  rw [hround, List.map_id]

/-- The JSON text of a header, as the host writes it. -/
def headerText (fields : List (JsString × JsValue)) : Bytes :=
  (referencePlatform.stringify fields).map UInt16.toUInt8

/-- The keys of the histories below. -/
def oneKey : SnapshotOptions where
  keys := ⟨fun _ ↦ List.replicate 32 7, some .static, none⟩

/-- A host that can read the headers it is given here; nothing is compressed or hidden. -/
def plainHost (headers : List SnapshotHeader) : NodeCrypto where
  stringify := headerText
  parse := fun text ↦
    (headers.find? fun h ↦ headerText h.fields = text).map fun h ↦ .object h.fields
  gzip := id
  gunzip := some
  encrypt := fun _ _ _ text ↦ (text, List.replicate 16 0)
  decrypt := fun _ _ _ text tag ↦ if tag = List.replicate 16 0 then some text else none
  sha256 := digestOf
  toBase64 := fun bytes ↦ bytes.map UInt8.toUInt16
  fromBase64 := fun text ↦ text.map UInt16.toUInt8
  dateParses := fun _ ↦ true

/-- The header of a call that writes one byte. -/
def oneByteHeader (b : UInt8) (digest : JsString) : SnapshotHeader where
  workspaceId := js "workspace"
  createdAt := js "2026-01-01T00:00:00.000Z"
  plaintextBytes := 1
  sha256 := digest
  nonce := List.replicate 12 b.toUInt16
  keyVersion := true
  keyScope := some .static

/-- The host of the histories below. -/
def threeBytes : NodeCrypto :=
  plainHost [oneByteHeader 1 firstDigest, oneByteHeader 2 secondDigest, oneByteHeader 3 thirdDigest]

/-- The process dies before the second archive is promoted; the third call completes. -/
def promotedLate : List CreateCall :=
  [oneByte 1 fun _ ↦ .succeeds, oneByte 2 fun p ↦ if p = .promote then .dies else .succeeds,
    oneByte 3 fun _ ↦ .succeeds]

theorem snapshots_recover_promotedLate :
    Throughout (SnapshotHistory.step threeBytes oneKey (js "workspace"))
        (Careful threeBytes oneKey (js "workspace")) {} promotedLate ∧
      Recovers threeBytes oneKey (js "workspace")
        (SnapshotHistory.after threeBytes oneKey (js "workspace") promotedLate) :=
  have hcareful : Throughout (SnapshotHistory.step threeBytes oneKey (js "workspace"))
      (Careful threeBytes oneKey (js "workspace")) {} promotedLate := by decide +kernel
  ⟨hcareful, snapshots_recover digestOf_injective hcareful⟩

/-- In the third call the file system fails to open the current generation once, and the process
dies before the new one is promoted. -/
def removedEarly : List CreateCall :=
  [oneByte 1 fun _ ↦ .succeeds, oneByte 2 fun _ ↦ .succeeds,
    oneByte 3 fun p ↦
      if p = .readCurrent then .fails else if p = .promote then .dies else .succeeds]

/-- The second archive was stored and verified; what is restored is the first one. -/
theorem not_recovers_removed :
    ¬Recovers threeBytes oneKey (js "workspace")
      (SnapshotHistory.after threeBytes oneKey (js "workspace") removedEarly) := by
  intro h
  have hrestored : restored threeBytes oneKey (js "workspace")
      (SnapshotHistory.after threeBytes oneKey (js "workspace") removedEarly).files = some [1] := by
    decide +kernel
  have hcandidates : (SnapshotHistory.after threeBytes oneKey (js "workspace")
      removedEarly).candidates = [[2], [3]] := by decide +kernel
  have hrecent := h.recent [1] hrestored
  rw [hcandidates] at hrecent
  exact absurd hrecent (by decide)

end LiteHarness.Workspace
