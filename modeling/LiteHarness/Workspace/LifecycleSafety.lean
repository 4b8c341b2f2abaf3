import LiteHarness.Foundation.Suspension
import LiteHarness.Workspace.Lifecycle
import LiteHarness.Workspace.SnapshotRecovery

/-!
# What a run finds in its workspace

Whatever becomes of the operations of `prepare` and `checkpoint`, a run is let in only where it
finds what the run before it has left, or the archive of the newest snapshot that could be read
(`workspaces_preserved`). There is one exception: a restore that is aborted goes back to `WARM`,
unless the workspace was `COLD`, and by then it may have made the volume; the next `prepare` takes
the empty volume for the workspace (`not_preserved_abortedImport`).
-/

namespace LiteHarness.Workspace

open Foundation Foundation.Eff

variable (C : NodeCrypto) (O : SnapshotOptions) {τ : Type} (T : Tar τ)
  (workspaceId identity : JsString)

/-! ## Histories -/

/-- A run that is let in: what it finds, what the last run let in before it has left, and what has
been restored since. -/
structure Admission (τ : Type) where
  contents : τ
  latest : τ
  recovered : List Recovery

/-- An export for a snapshot: the archive, what the last run let in has left, and what has been
restored since. -/
structure Capture (τ : Type) where
  archive : Bytes
  latest : τ
  recovered : List Recovery

/-- A workspace, and what has become of it. -/
structure LifecycleHistory (τ : Type) where
  workspace : ManagedWorkspace τ := {}
  /-- What the last run let in has left; a new workspace is empty. -/
  latest : τ
  admissions : List (Admission τ) := []
  captures : List (Capture τ) := []

/-- A call, or a run that writes. -/
inductive LifecycleStep (τ : Type) where
  | prepare (call : LifecycleCall τ)
  | write (tree : τ)
  | checkpoint (call : LifecycleCall τ)

/-- A call begins with a signal of its own. -/
def ManagedWorkspace.beginCall (s : ManagedWorkspace τ) : ManagedWorkspace τ :=
  { s with aborted := false, captured := [] }

/-- One step of a history. -/
def LifecycleHistory.step (h : LifecycleHistory τ) : LifecycleStep τ → LifecycleHistory τ
  | .prepare call =>
    match (prepare C O T workspaceId identity call).run h.workspace.beginCall with
    | (.ok _, s) =>
      { h with
        workspace := { s with recovered := [] }
        latest := s.contents T
        admissions := h.admissions ++ [⟨s.contents T, h.latest, s.recovered⟩] }
    | (.error _, s) => { h with workspace := s }
  | .write tree =>
    if h.workspace.state = .inUse then
      { h with workspace := { h.workspace with volume := some tree }, latest := tree }
    else h
  | .checkpoint call =>
    let s := ((checkpoint C O T identity call).run h.workspace.beginCall).2
    { h with
      workspace := s
      captures := h.captures ++ s.captured.map fun archive ↦ ⟨archive, h.latest, s.recovered⟩ }

/-! ## The property -/

/-- The generations, newer ones first. -/
def generations : List SnapshotFile := [.current, .previous, .previousBackup]

/-- What has been restored is the newest generation that could be read. -/
def Recovery.Newest (r : Recovery) : Prop :=
  ∃ newer name older, generations = newer ++ name :: older ∧
    archiveOf C O identity r.files name = some r.archive ∧
    ∀ n ∈ newer, r.faults n = .succeeds → archiveOf C O identity r.files n = none

/-- What the last run let in has left, or the archive of the newest snapshot that could be read. -/
def Current (latest : τ) (recovered : List Recovery) (contents : τ) : Prop :=
  contents = latest ∨
    ∃ r ∈ recovered, r.Newest C O identity ∧ T.unpack r.archive = some contents

/-- The changes of state the lifecycle makes, each from the state it expects. -/
def expectedChanges : List (WorkspaceState × WorkspaceState) :=
  [(.error, .warm), (.error, .restoring), (.inUse, .warm), (.snapshotting, .warm),
    (.cold, .restoring), (.warm, .restoring), (.restoring, .warm), (.restoring, .cold),
    (.restoring, .corrupt), (.restoring, .error), (.warm, .inUse), (.inUse, .snapshotting),
    (.snapshotting, .cold), (.snapshotting, .error)]

/-- What the lifecycle promises after a history. -/
structure Preserved (h : LifecycleHistory τ) : Prop where
  /-- A run is let in only where it finds what it should. -/
  admitted : ∀ a ∈ h.admissions, Current C O T identity a.latest a.recovered a.contents
  /-- Only that is ever stored. -/
  captured : ∀ c ∈ h.captures, ∃ contents, c.archive = T.pack contents ∧
    Current C O T identity c.latest c.recovered contents
  /-- The state is changed only from the state that is expected. -/
  expected : ∀ change ∈ h.workspace.changes, change ∈ expectedChanges

/-! ## The condition -/

/-- The operations of a restore during which the signal may abort. -/
def restorePoints : List LifecyclePoint :=
  [.restore, .createVolume, .volumeLabels, .initializeVolume, .createStaging, .createBackup, .extract,
    .copy, .fill]

/-- The signal does not abort during a restore, or there is no volume: it was missing before, and
the restore does not come to making it. -/
def LeavesNoVolume (call : LifecycleCall τ) (volume : Option τ) : Prop :=
  (∀ p ∈ restorePoints, call.aborts p = false) ∨
    volume = none ∧ (call.aborts .restore = true ∨ call.faults .createVolume ≠ .succeeds)

/-- No restore that would go back to `WARM` is aborted once there is a volume. -/
def Spared (s : ManagedWorkspace τ) (call : LifecycleCall τ) : Prop :=
  s.state ≠ .cold → s.state ≠ .corrupt → (s.state = .restoring ∨ s.volume = none) →
    LeavesNoVolume call s.volume

/-- The condition on a step. -/
def Unaborted (h : LifecycleHistory τ) : LifecycleStep τ → Prop
  | .prepare call => Spared h.workspace call
  | _ => True

/-! ## The invariant -/

variable {C O T workspaceId identity} {latest : τ} {s t : ManagedWorkspace τ}

/-- What a run would find is what it should find. -/
def Ready (C : NodeCrypto) (O : SnapshotOptions) (T : Tar τ) (identity : JsString) (latest : τ)
    (s : ManagedWorkspace τ) : Prop := Current C O T identity latest s.recovered (s.contents T)

/-- The volume is as it should be, or missing where it can be restored. -/
def Usable (C : NodeCrypto) (O : SnapshotOptions) (T : Tar τ) (identity : JsString) (latest : τ)
    (s : ManagedWorkspace τ) : Prop :=
  Ready C O T identity latest s ∨ s.volume = none ∧ hasCandidates s.snapshots = true

/-- What has to be true of a workspace that is given a state. -/
def Allows (C : NodeCrypto) (O : SnapshotOptions) (T : Tar τ) (identity : JsString) (latest : τ)
    (s : ManagedWorkspace τ) : WorkspaceState → Prop
  | .warm | .snapshotting | .error => Usable C O T identity latest s
  | .inUse => Ready C O T identity latest s
  | .cold | .restoring => hasCandidates s.snapshots = true
  | .corrupt => True

/-- What does not depend on the state. -/
structure Recorded (C : NodeCrypto) (O : SnapshotOptions) (T : Tar τ) (identity : JsString)
    (latest : τ) (s : ManagedWorkspace τ) : Prop where
  managed : s.mode = .managed
  expected : ∀ change ∈ s.changes, change ∈ expectedChanges
  captured : ∀ archive ∈ s.captured, ∃ contents, archive = T.pack contents ∧
    Current C O T identity latest s.recovered contents

/-- The invariant of a workspace. -/
def Sound (C : NodeCrypto) (O : SnapshotOptions) (T : Tar τ) (identity : JsString) (latest : τ)
    (s : ManagedWorkspace τ) : Prop :=
  Recorded C O T identity latest s ∧ Allows C O T identity latest s s.state

theorem Current.mono {recovered later : List Recovery} {contents : τ}
    (h : Current C O T identity latest recovered contents) :
    Current C O T identity latest (recovered ++ later) contents := by
  rcases h with rfl | ⟨r, hr, hnewest⟩
  · exact Or.inl rfl
  · exact Or.inr ⟨r, List.mem_append_left later hr, hnewest⟩

theorem Ready.usable (h : Ready C O T identity latest s) : Usable C O T identity latest s :=
  Or.inl h

/-- The state does not matter where nothing else has changed. -/
theorem Recorded.change (h : Recorded C O T identity latest s) {state : WorkspaceState}
    (hexpected : (s.state, state) ∈ expectedChanges) :
    Recorded C O T identity latest
      { s with state := state, changes := s.changes ++ [(s.state, state)] } := by
  refine ⟨h.managed, fun change hchange ↦ ?_, h.captured⟩
  rcases List.mem_append.mp hchange with hold | hnew
  · exact h.expected change hold
  · rwa [List.mem_singleton.mp hnew]

/-! ## Single operations -/

variable {call : LifecycleCall τ} {p : ManagedWorkspace τ → Prop} {point : LifecyclePoint}

theorem triple_throwIfAborted {q : Except (Halt (FileError JsString)) Unit →
    ManagedWorkspace τ → Prop} (hgo : ∀ s, p s → s.aborted = false → q (.ok ()) s)
    (hstop : ∀ s, p s → s.aborted = true → q (.error (.threw .failed)) s) :
    Triple p throwIfAborted q := by
  refine Triple.gets fun s hs ↦ Triple.ite (fun haborted ↦ ?_) fun haborted ↦ ?_
  · refine Triple.throw ?_
    rintro _ rfl
    exact hstop _ hs haborted
  · refine Triple.pure ?_
    rintro _ rfl
    exact hgo _ hs (Bool.eq_false_iff.mpr haborted)

theorem triple_carry {effect : Option τ → Option τ} {q : Except (Halt (FileError JsString)) Unit →
    ManagedWorkspace τ → Prop}
    (hdone : call.faults point = .succeeds → ∀ s, p s →
      q (.ok ()) { s with volume := effect s.volume })
    (hstop : call.faults point ≠ .succeeds → ∀ s, p s → ∀ halt, q (.error halt) s) :
    Triple p (carry call point effect) q := by
  refine Triple.attempt (fun ho s hs a t h ↦ ?_) (fun _ s _ e h ↦ absurd h nofun)
    (fun ho s hs ↦ hstop (ho ▸ by decide) s hs _) fun ho s hs ↦ hstop (ho ▸ by decide) s hs _
  obtain ⟨-, rfl⟩ := Prod.mk.inj (Except.ok.inj h)
  exact hdone ho s hs

/-- An operation that changes nothing. -/
theorem triple_still {outcome : Outcome} {q : Except (Halt (FileError JsString)) Unit →
    ManagedWorkspace τ → Prop} (hdone : ∀ s, p s → q (.ok ()) s)
    (hstop : ∀ s, p s → ∀ halt, q (.error halt) s) :
    Triple p (attempt outcome .failed fun s ↦ .ok ((), s)) q := by
  refine Triple.attempt (fun _ s hs a t h ↦ ?_) (fun _ s _ e h ↦ absurd h nofun)
    (fun _ s hs ↦ hstop s hs _) fun _ s hs ↦ hstop s hs _
  obtain ⟨-, rfl⟩ := Prod.mk.inj (Except.ok.inj h)
  exact hdone s hs

theorem triple_transition {expected state : WorkspaceState}
    {q : Except (Halt (FileError JsString)) Unit → ManagedWorkspace τ → Prop}
    (hdone : ∀ s, p s → s.state = expected →
      q (.ok ()) { s with state := state, changes := s.changes ++ [(s.state, state)] })
    (hstop : ∀ s, p s → ∀ halt, q (.error halt) s) :
    Triple p (transition call point expected state) q := by
  refine Triple.attempt (fun _ s hs a t h ↦ ?_) (fun _ s hs e _ ↦ hstop s hs _)
    (fun _ s hs ↦ hstop s hs _) fun _ s hs ↦ hstop s hs _
  by_cases hstate : s.state = expected
  · rw [if_pos hstate] at h
    obtain ⟨-, rfl⟩ := Prod.mk.inj (Except.ok.inj h)
    exact hdone s hs hstate
  · rw [if_neg hstate] at h
    exact absurd h nofun

/-! ## What a command leaves alone -/

/-- Nothing has changed but the volume and the signal. -/
def Touched (s t : ManagedWorkspace τ) : Prop :=
  t = { s with volume := t.volume, aborted := t.aborted }

theorem Touched.refl (s : ManagedWorkspace τ) : Touched s s := rfl

theorem Touched.trans {s t u : ManagedWorkspace τ} (hst : Touched s t) (htu : Touched t u) :
    Touched s u := by
  rw [Touched, hst] at htu
  exact htu

theorem Touched.recorded (h : Touched s t) (hs : Recorded C O T identity latest s) :
    Recorded C O T identity latest t := by
  rw [h]
  exact ⟨hs.managed, hs.expected, hs.captured⟩

section Evolves

variable {R : ManagedWorkspace τ → ManagedWorkspace τ → Prop}

theorem evolves_throwIfAborted (hrefl : ∀ s, R s s) :
    Evolves R (throwIfAborted : LifecycleProgram τ Unit) :=
  Evolves.gets fun _ ↦ Evolves.ite (Evolves.throw hrefl _) (Evolves.pure hrefl _)

theorem evolves_still (hrefl : ∀ s, R s s) (outcome : Outcome) :
    Evolves R (attempt outcome (FileError.failed : FileError JsString)
      fun s : ManagedWorkspace τ ↦ .ok ((), s)) := by
  refine Evolves.attempt hrefl fun s a t h ↦ ?_
  obtain ⟨-, rfl⟩ := Prod.mk.inj (Except.ok.inj h)
  exact hrefl s

theorem evolves_carry (hrefl : ∀ s, R s s) {effect : Option τ → Option τ}
    (heffect : ∀ s, R s { s with volume := effect s.volume }) :
    Evolves R (carry call point effect) := by
  refine Evolves.attempt hrefl fun s a t h ↦ ?_
  obtain ⟨-, rfl⟩ := Prod.mk.inj (Except.ok.inj h)
  exact heffect s

/-- A command moves along any relation its effects do. -/
theorem evolves_command (hrefl : ∀ s, R s s) (htrans : ∀ s t u, R s t → R t u → R s u)
    (hnote : ∀ s, R s { s with aborted := s.aborted || call.aborts point })
    {effect : Option τ → Option τ} (heffect : ∀ s, R s { s with volume := effect s.volume }) :
    Evolves R (command call point effect) :=
  Evolves.bind htrans (evolves_throwIfAborted hrefl) fun _ ↦
    Evolves.bind htrans (Evolves.modify hnote) fun _ ↦
      Evolves.bind htrans (evolves_carry hrefl heffect) fun _ ↦
        Evolves.bind htrans (evolves_throwIfAborted hrefl) fun _ ↦ evolves_still hrefl _

end Evolves

/-! ## Importing an archive -/

/-- Nothing has changed but the volume and the signal, and a signal that does not abort during the
restore has not. -/
def Quiet (call : LifecycleCall τ) (s t : ManagedWorkspace τ) : Prop :=
  Touched s t ∧
    ((∀ p ∈ restorePoints, call.aborts p = false) → s.aborted = false → t.aborted = false)

theorem Quiet.refl (s : ManagedWorkspace τ) : Quiet call s s := ⟨Touched.refl s, fun _ h ↦ h⟩

theorem Quiet.trans {s t u : ManagedWorkspace τ} (hst : Quiet call s t) (htu : Quiet call t u) :
    Quiet call s u :=
  ⟨hst.1.trans htu.1, fun hcall h ↦ htu.2 hcall (hst.2 hcall h)⟩

theorem Quiet.note (hpoint : point ∈ restorePoints) (s : ManagedWorkspace τ) :
    Quiet call s { s with aborted := s.aborted || call.aborts point } := by
  refine ⟨rfl, fun hcall h ↦ ?_⟩
  dsimp only
  rw [h, hcall point hpoint]
  rfl

theorem Quiet.carry {effect : Option τ → Option τ} (s : ManagedWorkspace τ) :
    Quiet call s { s with volume := effect s.volume } := ⟨rfl, fun _ h ↦ h⟩

theorem quiet_command {effect : Option τ → Option τ} (hpoint : point ∈ restorePoints) :
    Evolves (Quiet call) (command call point effect) :=
  evolves_command Quiet.refl (fun _ _ _ ↦ Quiet.trans) (Quiet.note hpoint) Quiet.carry

theorem Quiet.bind {α β : Type} {m : LifecycleProgram τ α} {f : α → LifecycleProgram τ β}
    (hm : Evolves (Quiet call) m) (hf : ∀ a, Evolves (Quiet call) (f a)) :
    Evolves (Quiet call) (m >>= f) :=
  Evolves.bind (R := Quiet call) (fun _ _ _ ↦ Quiet.trans) hm hf

theorem Quiet.rescue {α : Type} {m : LifecycleProgram τ α}
    {handler : FileError JsString → LifecycleProgram τ α} (hm : Evolves (Quiet call) m)
    (hh : ∀ e, Evolves (Quiet call) (handler e)) : Evolves (Quiet call) (rescue m handler) :=
  Evolves.rescue Quiet.refl (fun _ _ _ ↦ Quiet.trans) hm hh

theorem quiet_carry {effect : Option τ → Option τ} :
    Evolves (Quiet call) (carry call point effect) :=
  evolves_carry Quiet.refl fun _ ↦ Quiet.carry _

theorem quiet_ensureVolume : Evolves (Quiet call) (ensureVolume T call) := by
  unfold ensureVolume
  exact Quiet.bind (quiet_command (by decide)) fun _ ↦
    Quiet.bind (quiet_command (by decide)) fun _ ↦ quiet_command (by decide)

theorem quiet_extractArchive {archive : Bytes} :
    Evolves (Quiet call) (extractArchive T call archive) := by
  unfold extractArchive
  refine Quiet.bind (quiet_command (by decide)) fun _ ↦ ?_
  cases T.unpack archive with
  | none => exact Evolves.throw Quiet.refl _
  | some tree => exact Evolves.pure Quiet.refl _

theorem quiet_copyVolume : Evolves (Quiet call) (copyVolume T call) := by
  unfold copyVolume
  exact Quiet.bind (quiet_command (by decide)) fun _ ↦
    Evolves.gets fun _ ↦ Evolves.pure Quiet.refl _

theorem quiet_replaceVolumeContents {tree : τ} :
    Evolves (Quiet call) (replaceVolumeContents call tree) := by
  unfold replaceVolumeContents
  refine Quiet.bind (evolves_throwIfAborted Quiet.refl) fun _ ↦
    Quiet.bind (Evolves.modify (Quiet.note (by decide))) fun _ ↦ ?_
  exact Quiet.bind quiet_carry fun _ ↦
    Quiet.bind quiet_carry fun _ ↦
      Quiet.bind (evolves_throwIfAborted Quiet.refl) fun _ ↦ evolves_still Quiet.refl _

theorem quiet_rollBack {tree : τ} : Evolves (Quiet call) (rollBack call tree) := by
  unfold rollBack
  exact Quiet.bind quiet_carry fun _ ↦
    Quiet.bind quiet_carry fun _ ↦
      Quiet.bind (evolves_still Quiet.refl _) fun _ ↦ evolves_still Quiet.refl _

/-- An import touches the volume alone. -/
theorem quiet_importWorkspace (call : LifecycleCall τ) (archive : Bytes) :
    Evolves (Quiet call) (importWorkspace T call archive) := by
  unfold importWorkspace
  refine Quiet.bind (evolves_still Quiet.refl _) fun _ ↦ Quiet.bind quiet_ensureVolume fun _ ↦
    Evolves.ensuring Quiet.refl (fun _ _ _ ↦ Quiet.trans) ?_ ?_
  · refine Quiet.bind (quiet_command (by decide)) fun _ ↦
      Quiet.bind (quiet_command (by decide)) fun _ ↦ Quiet.bind quiet_extractArchive fun tree ↦
        Quiet.bind quiet_copyVolume fun saved ↦
          Quiet.rescue quiet_replaceVolumeContents fun error ↦ ?_
    exact Quiet.bind (Quiet.rescue quiet_rollBack fun _ ↦ Evolves.throw Quiet.refl _) fun _ ↦
      Evolves.throw Quiet.refl _
  · exact Quiet.rescue (evolves_still Quiet.refl _) fun _ ↦ Evolves.pure Quiet.refl _

theorem triple_replaceVolumeContents {tree : τ} : Triple p (replaceVolumeContents call tree)
    (Returning fun _ s ↦ s.volume = some tree) := by
  unfold replaceVolumeContents
  refine Returning.bind Returning.of_true fun _ ↦ Returning.bind Returning.of_true fun _ ↦
    Returning.bind Returning.of_true fun _ ↦ ?_
  refine Returning.bind (q := fun _ (s : ManagedWorkspace τ) ↦ s.volume = some tree)
    (triple_carry (fun _ _ _ ↦ rfl) fun _ _ _ _ ↦ trivial) fun _ ↦ ?_
  exact Returning.bind (q := fun _ (s : ManagedWorkspace τ) ↦ s.volume = some tree)
    (triple_throwIfAborted (fun _ h _ ↦ h) fun _ _ _ ↦ trivial) fun _ ↦
      triple_still (fun _ h ↦ h) fun _ _ _ ↦ trivial

theorem triple_extractArchive {archive : Bytes} : Triple p (extractArchive T call archive)
    (Returning fun tree _ ↦ T.unpack archive = some tree) := by
  unfold extractArchive
  refine Returning.bind Returning.of_true fun _ ↦ ?_
  cases hunpack : T.unpack archive with
  | none => exact Triple.throw fun _ _ ↦ trivial
  | some tree => exact Triple.pure fun _ _ ↦ rfl

/-- An import that returns has put the archive in the volume. -/
theorem triple_importWorkspace (call : LifecycleCall τ) (archive : Bytes) :
    Triple p (importWorkspace T call archive)
      (Returning fun _ s ↦ ∃ tree, T.unpack archive = some tree ∧ s.volume = some tree) := by
  unfold importWorkspace
  refine Returning.bind Returning.of_true fun _ ↦ Returning.bind Returning.of_true fun _ ↦
    Triple.ensuring (r := Returning fun _ s ↦ ∃ tree, T.unpack archive = some tree ∧
      s.volume = some tree) ?_ (fun _ ↦ ?_) (fun e s _ ↦ ?_) fun _ _ ↦ trivial
  · refine Returning.bind Returning.of_true fun _ ↦ Returning.bind Returning.of_true fun _ ↦
      Returning.bind triple_extractArchive fun tree s htree ↦ ?_
    have hrest : Triple (fun _ ↦ True) (copyVolume T call >>= fun saved ↦
        rescue (replaceVolumeContents call tree) fun error ↦ do
          rescue (rollBack call saved) fun _ ↦ throw (.threw rollbackError)
          throw (.threw error))
        (Returning fun _ s ↦ ∃ tree, T.unpack archive = some tree ∧ s.volume = some tree) := by
      refine Returning.bind Returning.of_true fun saved ↦ Triple.rescue triple_replaceVolumeContents
        (fun _ s h ↦ ⟨tree, htree, h⟩) (fun e ↦ ?_) fun _ _ ↦ trivial
      -- the handler never returns
      exact Triple.bind (r := fun _ _ ↦ True) (fun _ _ ↦ trivial)
        (fun _ ↦ Triple.throw fun _ _ ↦ trivial) fun _ _ _ ↦ trivial
    exact hrest s trivial
  · refine Triple.rescue (r := fun _ s ↦ ∃ tree, T.unpack archive = some tree ∧
      s.volume = some tree) ?_ (fun _ _ h ↦ h) (fun _ ↦ Triple.pure fun _ h ↦ h) fun _ _ ↦ trivial
    exact triple_still (fun _ h ↦ h) fun _ h _ ↦ h
  · cases ((rescue _ _ : LifecycleProgram τ PUnit).run s).1 <;> trivial

/-- The postcondition of a part that does not return. -/
def Failing {α : Type} (q : ManagedWorkspace τ → Prop) :
    Except (Halt (FileError JsString)) α → ManagedWorkspace τ → Prop
  | .ok _, _ => False
  | .error _, s => q s

/-- An import that does not come to making the volume makes none. -/
theorem triple_importWorkspace_none (archive : Bytes)
    (hcreate : call.faults .createVolume ≠ .succeeds) :
    Triple (fun s ↦ s.volume = none) (importWorkspace T call archive)
      (Failing fun s ↦ s.volume = none) := by
  have hcommand : Triple (fun s ↦ s.volume = none)
      (command call .createVolume fun volume ↦ some (volume.getD T.empty))
      (Failing fun s ↦ s.volume = none) := by
    unfold command
    refine Triple.bind (r := fun _ s ↦ s.volume = none)
      (triple_throwIfAborted (fun _ h _ ↦ h) fun _ h _ ↦ h) (fun _ ↦ ?_) fun _ _ h ↦ h
    refine Triple.bind (r := fun _ s ↦ s.volume = none) (Triple.modify fun _ h ↦ h) (fun _ ↦ ?_)
      fun _ _ h ↦ h
    exact Triple.bind (r := Failing fun s ↦ s.volume = none)
      (triple_carry (fun ho ↦ absurd ho hcreate) fun _ _ h _ ↦ h) (fun _ _ h ↦ h.elim)
      fun _ _ h ↦ h
  unfold importWorkspace ensureVolume
  refine Triple.bind (r := fun _ s ↦ s.volume = none) (triple_still (fun _ h ↦ h) fun _ h _ ↦ h)
    (fun _ ↦ ?_) fun _ _ h ↦ h
  refine Triple.bind (r := Failing fun s ↦ s.volume = none) ?_ (fun _ _ h ↦ h.elim) fun _ _ h ↦ h
  exact Triple.bind hcommand (fun _ _ h ↦ h.elim) fun _ _ h ↦ h

/-! ## Restoring -/

variable {d₀ : Snapshots} {s₀ : ManagedWorkspace τ}

theorem triple_readArchive {outcome : Outcome} {name : SnapshotFile} :
    Triple (fun d ↦ d = d₀) (readArchive C O identity outcome name) fun r d ↦ d = d₀ ∧
      match r with
      | .ok archive => archiveOf C O identity d₀ name = some archive
      | .error _ => outcome = .succeeds → archiveOf C O identity d₀ name = none := by
  unfold readArchive
  refine Triple.bind (r := fun r d ↦ d = d₀ ∧
    match r with
    | .ok file => d₀ name = some file
    | .error _ => outcome = .succeeds → archiveOf C O identity d₀ name = none) ?_
    (fun file ↦ ?_) fun _ _ h ↦ h
  · refine Files.triple_read ?_ ?_ (fun ho _ h ↦ ⟨h, fun h' ↦ ?_⟩) fun ho _ h ↦ ⟨h, fun h' ↦ ?_⟩
    · rintro - _ rfl content hcontent
      exact ⟨rfl, hcontent⟩
    · rintro - _ rfl hnone
      exact ⟨rfl, fun _ ↦ archiveOf_of_none hnone⟩
    all_goals exact absurd (ho.symm.trans h') (by decide)
  · cases hread : readSnapshot C O identity file with
    | some archive => exact Triple.pure fun _ h ↦ ⟨h.1, (archiveOf_of_some h.2).trans hread⟩
    | none => exact Triple.throw fun _ h ↦ ⟨h.1, fun _ ↦ (archiveOf_of_some h.2).trans hread⟩

/-- Reading one generation, where the newer ones could not be read. -/
theorem triple_readNext {faults : SnapshotFile → Outcome} {name : SnapshotFile}
    {older : List SnapshotFile} (fromPrevious : Bool) (newer : List SnapshotFile)
    (hgenerations : generations = newer ++ name :: older)
    (hnewer : ∀ n ∈ newer, faults n = .succeeds → archiveOf C O identity d₀ n = none) :
    Triple (fun d ↦ d = d₀)
      (do pure (← readArchive C O identity (faults name) name, fromPrevious)) fun r d ↦ d = d₀ ∧
        match r with
        | .ok found => Recovery.Newest C O identity ⟨d₀, faults, found.1⟩
        | .error _ => ∀ n ∈ newer ++ [name], faults n = .succeeds →
            archiveOf C O identity d₀ n = none := by
  refine Triple.bind triple_readArchive (fun archive ↦ Triple.pure fun _ h ↦ ⟨h.1, ?_⟩)
    fun halt d h ↦ ⟨h.1, fun n hn hsucceeds ↦ ?_⟩
  · exact ⟨newer, name, older, hgenerations, h.2, hnewer⟩
  · rcases List.mem_append.mp hn with hn | hn
    · exact hnewer n hn hsucceeds
    · obtain rfl := List.mem_singleton.mp hn
      exact h.2 hsucceeds

/-- What is restored is the newest generation that could be read. -/
theorem triple_restoreWith (d₀ : Snapshots) {faults : SnapshotFile → Outcome} :
    Triple (fun d ↦ d = d₀) (restoreWith C O identity faults) fun r d ↦ d = d₀ ∧
      match r with
      | .ok found => Recovery.Newest C O identity ⟨d₀, faults, found.1⟩
      | .error _ => True := by
  refine Triple.rescue (triple_readNext false [] rfl fun _ h ↦ absurd h nofun)
    (fun _ _ h ↦ h) (fun _ ↦ Triple.given fun hcurrent ↦ ?_) fun _ h ↦ ⟨h.1, trivial⟩
  refine Triple.rescue (triple_readNext true [.current] rfl hcurrent)
    (fun _ _ h ↦ h) (fun _ ↦ Triple.given fun hprevious ↦ ?_) fun _ h ↦ ⟨h.1, trivial⟩
  exact Triple.rescue (triple_readNext true [.current, .previous] rfl hprevious)
    (fun _ _ h ↦ h) (fun _ ↦ Triple.throw fun _ h ↦ ⟨h.1, trivial⟩) fun _ h ↦ ⟨h.1, trivial⟩

/-- The restore of a call, begun in `s₀`. -/
theorem triple_recover : Triple (fun s ↦ s = s₀) (recover C O identity call) fun r s ↦
    ∃ later, s = { s₀ with
        aborted := s₀.aborted || call.aborts .restore, recovered := s₀.recovered ++ later } ∧
      ∀ found, r = .ok found → s.aborted = false ∧
        ∃ r ∈ later, r.Newest C O identity ∧ r.archive = found.1 := by
  unfold recover
  refine Triple.bind (r := fun _ s ↦
    s = { s₀ with aborted := s₀.aborted || call.aborts .restore }) (Triple.modify ?_) (fun _ ↦ ?_)
    fun _ _ h ↦ ⟨[], by rw [h, List.append_nil], nofun⟩
  · rintro _ rfl
    rfl
  refine Triple.bind (r := fun r s ↦
    s = { s₀ with aborted := s₀.aborted || call.aborts .restore } ∧
      ∀ found, r = .ok found → Recovery.Newest C O identity
        ⟨s₀.snapshots, fun name ↦ call.faults (.readSnapshot name), found.1⟩)
    (Triple.zoom (triple_restoreWith s₀.snapshots) ?_ ?_) (fun found ↦ ?_)
    fun _ _ h ↦ ⟨[], by rw [h.1, List.append_nil], nofun⟩
  · rintro _ rfl
    rfl
  · rintro r _ d rfl ⟨rfl, hr⟩
    refine ⟨rfl, ?_⟩
    rintro found rfl
    exact hr
  refine Triple.bind (r := fun _ s ↦ s = { s₀ with
      aborted := s₀.aborted || call.aborts .restore
      recovered := s₀.recovered ++ [⟨s₀.snapshots,
        fun name ↦ call.faults (.readSnapshot name), found.1⟩] } ∧
      Recovery.Newest C O identity
        ⟨s₀.snapshots, fun name ↦ call.faults (.readSnapshot name), found.1⟩)
    (Triple.modify ?_) (fun _ ↦ ?_) fun _ _ h ↦ ⟨_, h.1, nofun⟩
  · rintro _ ⟨rfl, hr⟩
    exact ⟨rfl, hr found rfl⟩
  refine Triple.bind (r := fun r s ↦ (s = { s₀ with
      aborted := s₀.aborted || call.aborts .restore
      recovered := s₀.recovered ++ [⟨s₀.snapshots,
        fun name ↦ call.faults (.readSnapshot name), found.1⟩] } ∧
      Recovery.Newest C O identity
        ⟨s₀.snapshots, fun name ↦ call.faults (.readSnapshot name), found.1⟩) ∧
      (r = .ok () → s.aborted = false))
    (triple_throwIfAborted (fun _ h haborted ↦ ⟨h, fun _ ↦ haborted⟩) fun _ h _ ↦ ⟨h, nofun⟩)
    (fun _ ↦ Triple.pure fun s h ↦ ⟨_, h.1.1, ?_⟩) fun _ _ h ↦ ⟨_, h.1.1, nofun⟩
  rintro _ hfound
  obtain rfl := Except.ok.inj hfound
  exact ⟨h.2 rfl, _, List.mem_singleton_self _, h.1.2, rfl⟩

/-- A workspace that is being restored. -/
structure Restoring (C : NodeCrypto) (O : SnapshotOptions) (T : Tar τ) (identity : JsString)
    (latest : τ) (s : ManagedWorkspace τ) : Prop where
  recorded : Recorded C O T identity latest s
  state : s.state = .restoring
  candidates : hasCandidates s.snapshots = true

variable {fallback : WorkspaceState}

/-- A workspace whose restore has ended early. If the signal has aborted, it may go back to the
fallback state. -/
def Abandoned (C : NodeCrypto) (O : SnapshotOptions) (T : Tar τ) (identity : JsString) (latest : τ)
    (fallback : WorkspaceState) (s : ManagedWorkspace τ) : Prop :=
  Restoring C O T identity latest s ∧
    (s.aborted = true → fallback = .cold ∨ Usable C O T identity latest s)

/-- A workspace whose restore has ended. -/
def Restored (C : NodeCrypto) (O : SnapshotOptions) (T : Tar τ) (identity : JsString) (latest : τ)
    (s : ManagedWorkspace τ) : Prop :=
  Recorded C O T identity latest s ∧ s.state = .warm ∧ Ready C O T identity latest s

theorem Restoring.sound (h : Restoring C O T identity latest s) :
    Sound C O T identity latest s := by
  refine ⟨h.recorded, ?_⟩
  rw [h.state]
  exact h.candidates

theorem Restoring.touched (h : Restoring C O T identity latest s) (hst : Touched s t) :
    Restoring C O T identity latest t := by
  refine ⟨hst.recorded h.recorded, ?_, ?_⟩
  · rw [hst]
    exact h.state
  · rw [hst]
    exact h.candidates

theorem Restoring.recover (h : Restoring C O T identity latest s) (aborted : Bool)
    (later : List Recovery) : Restoring C O T identity latest
      { s with aborted := aborted, recovered := s.recovered ++ later } := by
  refine ⟨⟨h.recorded.managed, h.recorded.expected, fun archive harchive ↦ ?_⟩, h.state,
    h.candidates⟩
  obtain ⟨contents, heq, hcurrent⟩ := h.recorded.captured archive harchive
  exact ⟨contents, heq, hcurrent.mono⟩

theorem usable_of_none (hvolume : s.volume = none) (hcandidates : hasCandidates s.snapshots = true) :
    Usable C O T identity latest s := Or.inr ⟨hvolume, hcandidates⟩

/-- The import of a restore, when the signal has not aborted before. -/
theorem triple_restore_import {archive : Bytes} :
    Triple (fun s ↦ Restoring C O T identity latest s ∧ s.aborted = false ∧
        (fallback = .cold ∨ LeavesNoVolume call s.volume) ∧ call.aborts .restore = false ∧
        ∃ r ∈ s.recovered, r.Newest C O identity ∧ r.archive = archive)
      (importWorkspace T call archive) fun r s ↦ Restoring C O T identity latest s ∧
        match r with
        | .ok _ => Ready C O T identity latest s
        | .error _ => s.aborted = true → fallback = .cold ∨ Usable C O T identity latest s := by
  rintro s ⟨hs, haborted, hguard, hrestore, r, hr, hnewest, rfl⟩
  have hquiet := quiet_importWorkspace (T := T) call r.archive s
  have hdone : Triple (fun _ ↦ True) _ _ := triple_importWorkspace (T := T) call r.archive
  have hreturn := hdone s trivial
  have hrestoring := hs.touched hquiet.1
  have hrecovered : ((importWorkspace T call r.archive).run s).2.recovered = s.recovered := by
    rw [hquiet.1]
  refine ⟨hrestoring, ?_⟩
  rcases hrun : (importWorkspace T call r.archive).run s with ⟨halt | _, t⟩
  · rw [hrun] at hquiet hrestoring
    intro ht
    rcases hguard with hcold | hcalm | ⟨hnone, hcreate⟩
    · exact Or.inl hcold
    · exact absurd ht (Bool.eq_false_iff.mp (hquiet.2 hcalm haborted))
    · rw [hrestore] at hcreate
      have hnovolume := triple_importWorkspace_none (T := T) r.archive
        (hcreate.resolve_left nofun) s hnone
      rw [hrun] at hnovolume
      exact Or.inr (usable_of_none hnovolume hrestoring.candidates)
  · rw [hrun] at hreturn hrecovered
    obtain ⟨tree, hunpack, hvolume⟩ := hreturn
    dsimp only at hrecovered hvolume ⊢
    rw [Ready, ManagedWorkspace.contents, hrecovered, hvolume]
    exact Or.inr ⟨r, hr, hnewest, hunpack⟩

/-- The `try` of a restore. -/
theorem triple_restore_try :
    Triple (fun s ↦ Restoring C O T identity latest s ∧ s.aborted = false ∧
        (fallback = .cold ∨ LeavesNoVolume call s.volume))
      (do
        let found ← recover C O identity call
        importWorkspace T call found.1
        transition call (.update .restoring .warm) .restoring .warm
        pure (⟨true, found.2⟩ : Prepared)) fun r s ↦
      match r with
      | .ok _ => Restored C O T identity latest s
      | .error _ => Abandoned C O T identity latest fallback s := by
  refine Triple.of_eq fun s ⟨hs, haborted, hguard⟩ ↦ Triple.bind triple_recover (fun found ↦ ?_) ?_
  · refine Triple.bind (Triple.weaken triple_restore_import
      ?_ fun _ _ h ↦ h) (fun _ ↦ ?_) fun _ _ h ↦ h
    · rintro t ⟨later, ht, hfound⟩
      obtain ⟨hcalm, r, hr, hnewest, harchive⟩ := hfound found rfl
      have hrestore : call.aborts .restore = false := by
        rw [ht] at hcalm
        dsimp only at hcalm
        rwa [haborted, Bool.false_or] at hcalm
      rw [ht] at hcalm ⊢
      exact ⟨hs.recover _ later, hcalm, hguard, hrestore, r, List.mem_append_right _ hr, hnewest,
        harchive⟩
    · refine Triple.bind (r := fun r t ↦
        match r with
        | .ok _ => Restored C O T identity latest t
        | .error _ => Abandoned C O T identity latest fallback t) (triple_transition ?_ ?_)
        (fun _ ↦ Triple.pure fun _ h ↦ h) fun _ _ h ↦ h
      · rintro t ⟨ht, hready⟩ hstate
        refine ⟨ht.recorded.change ?_, rfl, hready⟩
        rw [hstate]
        decide
      · exact fun t h _ ↦ ⟨h.1, fun _ ↦ Or.inr h.2.usable⟩
  · rintro halt t ⟨later, ht, -⟩
    rw [ht]
    refine ⟨hs.recover _ later, fun hnoted ↦ ?_⟩
    dsimp only at hnoted
    rw [haborted, Bool.false_or] at hnoted
    rcases hguard with hcold | hcalm | ⟨hnone, -⟩
    · exact Or.inl hcold
    · rw [hcalm .restore (by decide)] at hnoted
      exact absurd hnoted nofun
    · exact Or.inr (usable_of_none hnone hs.candidates)

/-- The `catch` of a restore leaves a state that fits what is there. -/
theorem triple_abandonRestore {error : FileError JsString}
    (hfallback : fallback = .cold ∨ fallback = .warm) :
    Triple (Abandoned C O T identity latest fallback) (abandonRestore call fallback error)
      fun r s ↦ Sound C O T identity latest s ∧ ∀ prepared, r ≠ .ok prepared := by
  refine Triple.gets fun s hs ↦ Triple.bind (r := fun _ t ↦ Sound C O T identity latest t) ?_
    (fun _ ↦ Triple.throw fun _ h ↦ ⟨h, nofun⟩) fun _ _ h ↦ ⟨h, nofun⟩
  refine Triple.ite (fun haborted ↦ ?_) fun haborted ↦ Triple.ite (fun _ ↦ ?_) fun hnone ↦ ?_
  · refine triple_transition ?_ ?_
    · rintro _ rfl hstate
      refine ⟨hs.1.recorded.change ?_, ?_⟩
      · rw [hstate]
        rcases hfallback with rfl | rfl <;> decide
      · rcases hs.2 haborted with rfl | husable
        · exact hs.1.candidates
        · rcases hfallback with rfl | rfl
          · exact hs.1.candidates
          · exact husable
    · rintro _ rfl _
      exact hs.1.sound
  · refine triple_transition ?_ ?_
    · rintro _ rfl hstate
      refine ⟨hs.1.recorded.change ?_, trivial⟩
      rw [hstate]
      decide
    · rintro _ rfl _
      exact hs.1.sound
  · exact absurd hs.1.candidates hnone

/-- What the signal may do to a restore that is begun here. -/
def Guarded (call : LifecycleCall τ) (state : WorkspaceState) (s : ManagedWorkspace τ) : Prop :=
  state = .cold ∨ LeavesNoVolume call s.volume

/-- **A restore**: it ends with the archive in the volume, or in a state that fits what is
there. -/
theorem triple_restoreWorkspace (state : WorkspaceState)
    (hstate : state = .restoring ∨ (state, .restoring) ∈ expectedChanges) :
    Triple (fun s ↦ Sound C O T identity latest s ∧ s.state = state ∧
        hasCandidates s.snapshots = true ∧ s.aborted = false ∧ Guarded call state s)
      (restoreWorkspace C O T identity call state) fun r s ↦
      match r with
      | .ok _ => Restored C O T identity latest s
      | .error _ => Sound C O T identity latest s := by
  unfold restoreWorkspace
  have hguard : ∀ s, Guarded call state s →
      restoreFallbackState state = .cold ∨ LeavesNoVolume call s.volume := by
    rintro s (rfl | hnovolume)
    · exact Or.inl rfl
    · exact Or.inr hnovolume
  refine Triple.bind (r := fun r s ↦
    match r with
    | .ok _ => Restoring C O T identity latest s ∧ s.aborted = false ∧
        (restoreFallbackState state = .cold ∨ LeavesNoVolume call s.volume)
    | .error _ => Sound C O T identity latest s) (Triple.ite (fun hne ↦ ?_) fun heq ↦ ?_)
    (fun _ ↦ ?_) fun _ _ h ↦ h
  · refine triple_transition ?_ fun _ h _ ↦ h.1
    rintro s ⟨hs, rfl, hcandidates, haborted, hs'⟩ -
    exact ⟨⟨hs.1.change (hstate.resolve_left hne), rfl, hcandidates⟩, haborted, hguard s hs'⟩
  · refine Triple.pure ?_
    rintro s ⟨hs, rfl, hcandidates, haborted, hs'⟩
    exact ⟨⟨hs.1, not_not.mp heq, hcandidates⟩, haborted, hguard s hs'⟩
  · refine Triple.rescue triple_restore_try (fun _ _ h ↦ h) (fun e ↦ ?_) fun _ h ↦ h.1.sound
    refine Triple.weaken (triple_abandonRestore ?_) (fun _ h ↦ h) fun r s h ↦ ?_
    · rw [restoreFallbackState]
      split_ifs
      · exact Or.inl rfl
      · exact Or.inr rfl
    · cases r with
      | ok prepared => exact absurd rfl (h.2 prepared)
      | error halt => exact h.1

/-! ## Letting a run in -/

/-- A `prepare` that goes on: the signal has not aborted, and the condition still holds. -/
def Going (C : NodeCrypto) (O : SnapshotOptions) (T : Tar τ) (identity : JsString) (latest : τ)
    (call : LifecycleCall τ) (s : ManagedWorkspace τ) : Prop :=
  Sound C O T identity latest s ∧ s.aborted = false ∧ Spared s call

/-- A part of a `prepare`: it returns with `q`, or stops in a sound state. -/
def Going.Ends {α : Type} (C : NodeCrypto) (O : SnapshotOptions) (T : Tar τ) (identity : JsString)
    (latest : τ) (q : α → ManagedWorkspace τ → Prop) :
    Except (Halt (FileError JsString)) α → ManagedWorkspace τ → Prop
  | .ok a, s => q a s
  | .error _, s => Sound C O T identity latest s

theorem Going.bind {α β : Type} {q : α → ManagedWorkspace τ → Prop}
    {q' : β → ManagedWorkspace τ → Prop} {m : LifecycleProgram τ α} {f : α → LifecycleProgram τ β}
    (hm : Triple p m (Going.Ends C O T identity latest q))
    (hf : ∀ a, Triple (q a) (f a) (Going.Ends C O T identity latest q')) :
    Triple p (m >>= f) (Going.Ends C O T identity latest q') :=
  Triple.bind hm hf fun _ _ h ↦ h

theorem Sound.abort (h : Sound C O T identity latest s) (aborted : Bool) :
    Sound C O T identity latest { s with aborted := aborted } :=
  ⟨⟨h.1.managed, h.1.expected, h.1.captured⟩, h.2⟩

/-- What has to be true of a workspace in the state it has. -/
theorem Sound.allows (h : Sound C O T identity latest s) {state : WorkspaceState}
    (hstate : s.state = state) : Allows C O T identity latest s state := hstate ▸ h.2

theorem Sound.change (h : Sound C O T identity latest s) {state : WorkspaceState}
    (hexpected : (s.state, state) ∈ expectedChanges)
    (hallows : Allows C O T identity latest s state) : Sound C O T identity latest
      { s with state := state, changes := s.changes ++ [(s.state, state)] } := by
  refine ⟨h.1.change hexpected, ?_⟩
  cases state <;> exact hallows

/-- Asking the daemon for the volume. -/
theorem triple_workspaceExists : Triple (fun t ↦ t = s) (workspaceExists call point) fun r t ↦
    ∃ aborted, t = { s with aborted := aborted } ∧
      ∀ found, r = .ok found → aborted = false ∧ found = s.volume.isSome := by
  unfold workspaceExists
  refine Triple.bind (r := fun _ t ↦ t = s) (triple_throwIfAborted (fun _ h _ ↦ h) fun _ h _ ↦ h)
    (fun _ ↦ ?_) fun _ t h ↦ ⟨s.aborted, h, nofun⟩
  refine Triple.bind (r := fun _ t ↦ ∃ aborted, t = { s with aborted := aborted })
    (Triple.modify ?_) (fun _ ↦ ?_) fun _ t ⟨aborted, h⟩ ↦ ⟨aborted, h, nofun⟩
  · rintro _ rfl
    exact ⟨_, rfl⟩
  refine Triple.bind (r := fun r t ↦ ∃ aborted, t = { s with aborted := aborted } ∧
    ∀ found, r = .ok found → found = s.volume.isSome) (Triple.attempt ?_ ?_ ?_ ?_) (fun found ↦ ?_)
    fun _ t ⟨aborted, h, _⟩ ↦ ⟨aborted, h, nofun⟩
  · rintro - _ ⟨aborted, rfl⟩ a t h
    obtain ⟨rfl, rfl⟩ := Prod.mk.inj (Except.ok.inj h)
    refine ⟨aborted, rfl, ?_⟩
    rintro _ hfound
    exact (Except.ok.inj hfound).symm
  · exact fun _ _ _ e h ↦ absurd h nofun
  · exact fun _ _ ⟨aborted, h⟩ ↦ ⟨aborted, h, nofun⟩
  · exact fun _ _ ⟨aborted, h⟩ ↦ ⟨aborted, h, nofun⟩
  refine Triple.bind (r := fun r t ↦ ∃ aborted, t = { s with aborted := aborted } ∧
    found = s.volume.isSome ∧ (r = .ok () → aborted = false)) (triple_throwIfAborted ?_ ?_)
    (fun _ ↦ Triple.pure ?_) fun _ t ⟨aborted, h, _⟩ ↦ ⟨aborted, h, nofun⟩
  · rintro _ ⟨aborted, rfl, hfound⟩ haborted
    exact ⟨aborted, rfl, hfound found rfl, fun _ ↦ haborted⟩
  · rintro _ ⟨aborted, rfl, hfound⟩ _
    exact ⟨aborted, rfl, hfound found rfl, nofun⟩
  · rintro t ⟨aborted, ht, hvolume, haborted⟩
    refine ⟨aborted, ht, ?_⟩
    rintro _ hfound
    obtain rfl := Except.ok.inj hfound
    exact ⟨haborted rfl, hvolume⟩

/-- Leaving `ERROR`. -/
theorem triple_leaveError :
    Triple (fun s ↦ Going C O T identity latest call s ∧ s.state = .error)
      (leaveError workspaceId call) (Going.Ends C O T identity latest fun state s ↦
        (Going C O T identity latest call s ∧ s.state = state) ∧
          state ≠ .error ∧ state ≠ .corrupt) := by
  refine Triple.of_eq fun s ⟨⟨hs, _, hspared⟩, hstate⟩ ↦ ?_
  refine Going.bind (q := fun found t ↦ t = { s with aborted := false } ∧
    found = s.volume.isSome) ?_ fun found ↦ Triple.given fun hfound ↦ ?_
  · refine Triple.weaken triple_workspaceExists (fun _ h ↦ h) fun r t ⟨aborted, ht, hr⟩ ↦ ?_
    cases r with
    | ok found =>
      obtain ⟨rfl, hfound⟩ := hr found rfl
      exact ⟨ht, hfound⟩
    | error halt => exact ht ▸ hs.abort aborted
  have hsound := hs.abort false
  refine Triple.ite (fun htrue ↦ ?_) fun hfalse ↦ Triple.gets fun t ht ↦
    Triple.ite (fun hcandidates ↦ ?_) fun _ ↦ Triple.throw fun _ h ↦ h ▸ ht ▸ hsound
  · have hvolume : s.volume ≠ none := by
      rw [← Option.isSome_iff_ne_none, ← hfound, htrue]
    refine Going.bind (q := fun _ t ↦ Going C O T identity latest call t ∧ t.state = .warm)
      (triple_transition ?_ ?_) fun _ ↦ Triple.pure fun _ h ↦ ⟨h, by decide⟩
    · rintro _ rfl -
      refine ⟨⟨hsound.change ?_ (hs.allows hstate), rfl, fun _ _ h ↦ ?_⟩, rfl⟩
      · dsimp only
        rw [hstate]
        decide
      · exact absurd (h.resolve_left nofun) hvolume
    · rintro _ rfl _
      exact hsound
  · have hnone : s.volume = none := Option.not_isSome_iff_eq_none.mp (hfound ▸ hfalse)
    rw [ht] at hcandidates
    refine Going.bind (q := fun _ t ↦ Going C O T identity latest call t ∧ t.state = .restoring)
      (triple_transition ?_ ?_) fun _ ↦ Triple.pure fun _ h ↦ ⟨h, by decide⟩
    · rintro _ rfl -
      rw [ht]
      refine ⟨⟨hsound.change ?_ hcandidates, rfl, fun _ _ _ ↦ ?_⟩, rfl⟩
      · dsimp only
        rw [hstate]
        decide
      · exact hspared (by rw [hstate]; decide) (by rw [hstate]; decide) (Or.inr hnone)
    · rintro _ rfl _
      exact ht ▸ hsound

/-- Leaving `IN_USE` and `SNAPSHOTTING`. -/
theorem triple_leaveUse {state : WorkspaceState} (hstate : state ≠ .error ∧ state ≠ .corrupt) :
    Triple (fun s ↦ Going C O T identity latest call s ∧ s.state = state)
      (leaveUse call state) (Going.Ends C O T identity latest fun state s ↦
        (Going C O T identity latest call s ∧ s.state = state) ∧
          (state = .warm ∨ state = .restoring ∨ state = .cold)) := by
  refine Triple.ite (fun huse ↦ ?_) fun huse ↦ Triple.pure fun s h ↦ ⟨h, ?_⟩
  · refine Going.bind (q := fun _ t ↦ Going C O T identity latest call t ∧ t.state = .warm)
      (triple_transition ?_ fun s h _ ↦ h.1.1) fun _ ↦ Triple.pure fun _ h ↦ ⟨h, Or.inl rfl⟩
    rintro s ⟨⟨hs, haborted, hspared⟩, hsstate⟩ -
    have hallows := hs.allows hsstate
    refine ⟨⟨hs.change ?_ ?_, haborted, fun _ _ h ↦ ?_⟩, rfl⟩
    · rw [hsstate]
      rcases huse with rfl | rfl <;> decide
    · rcases huse with rfl | rfl
      · exact Ready.usable hallows
      · exact hallows
    · refine hspared ?_ ?_ (Or.inr (h.resolve_left nofun)) <;> rw [hsstate] <;>
        rcases huse with rfl | rfl <;> decide
  · cases state with
    | warm => exact Or.inl rfl
    | restoring => exact Or.inr (Or.inl rfl)
    | cold => exact Or.inr (Or.inr rfl)
    | inUse => exact absurd (Or.inl rfl) huse
    | snapshotting => exact absurd (Or.inr rfl) huse
    | corrupt => exact absurd rfl hstate.2
    | error => exact absurd rfl hstate.1

/-- Looking for the volume of a warm workspace. -/
theorem triple_missingWarmVolume {state : WorkspaceState} :
    Triple (fun s ↦ Going C O T identity latest call s ∧ s.state = state)
      (missingWarmVolume call state) (Going.Ends C O T identity latest fun missing s ↦
        Going C O T identity latest call s ∧ s.state = state ∧
          (missing = true → s.volume = none) ∧
          (state = .warm → missing = false → s.volume ≠ none)) := by
  refine Triple.ite (fun hwarm ↦ Triple.of_eq fun s ⟨⟨hs, _, hspared⟩, hstate⟩ ↦ ?_)
    fun hwarm ↦ Triple.pure fun s h ↦ ⟨h.1, h.2, nofun, fun h' ↦ absurd h' hwarm⟩
  refine Going.bind (q := fun found t ↦ t = { s with aborted := false } ∧
    found = s.volume.isSome) ?_ fun found ↦ Triple.pure ?_
  · refine Triple.weaken triple_workspaceExists (fun _ h ↦ h) fun r t ⟨aborted, ht, hr⟩ ↦ ?_
    cases r with
    | ok found =>
      obtain ⟨rfl, hfound⟩ := hr found rfl
      exact ⟨ht, hfound⟩
    | error halt => exact ht ▸ hs.abort aborted
  · rintro _ ⟨rfl, hfound⟩
    refine ⟨⟨hs.abort false, rfl, hspared⟩, hstate, fun hmissing ↦ ?_, fun _ hmissing ↦ ?_⟩
    · rw [hfound, Bool.not_eq_true', Option.isSome_eq_false_iff, Option.isNone_iff_eq_none]
        at hmissing
      exact hmissing
    · rw [hfound, Bool.not_eq_false', Option.isSome_iff_ne_none] at hmissing
      exact hmissing

/-- The end of a `prepare`. -/
theorem triple_enterUse {state : WorkspaceState} {missing : Bool}
    (hstate : state = .warm ∨ state = .restoring ∨ state = .cold) :
    Triple (fun s ↦ Going C O T identity latest call s ∧ s.state = state ∧
        (missing = true → s.volume = none) ∧ (state = .warm → missing = false → s.volume ≠ none))
      (enterUse C O T identity call state missing) (Going.Ends C O T identity latest fun _ s ↦
        Sound C O T identity latest s ∧ s.state = .inUse) := by
  have henter : ∀ {expected : WorkspaceState} {prepared : Prepared}, expected = .warm →
      Triple (fun s ↦ Sound C O T identity latest s ∧ Ready C O T identity latest s)
        (do transition call (.update expected .inUse) expected .inUse; pure prepared)
        (Going.Ends C O T identity latest fun _ s ↦
          Sound C O T identity latest s ∧ s.state = .inUse) := by
    rintro expected prepared rfl
    refine Going.bind (q := fun _ s ↦ Sound C O T identity latest s ∧ s.state = .inUse)
      (triple_transition (fun s h hwarm ↦ ⟨h.1.change ?_ h.2, rfl⟩) fun _ h _ ↦ h.1)
      fun _ ↦ Triple.pure fun _ h ↦ h
    rw [hwarm]
    decide
  refine Triple.gets fun s ⟨⟨hs, haborted, hspared⟩, hsstate, hmissing, hpresent⟩ ↦
    Triple.ite (fun hrestore ↦ ?_) fun hrestore ↦ ?_
  · refine Triple.bind (Triple.weaken (triple_restoreWorkspace state ?_) ?_ fun _ _ h ↦ h)
      (fun prepared ↦ ?_) fun _ _ h ↦ h
    · rcases hstate with rfl | rfl | rfl <;> decide
    · rintro _ rfl
      refine ⟨hs, hsstate, ?_, haborted, ?_⟩
      · rcases hrestore with rfl | rfl | hboth
        · exact hs.allows hsstate
        · exact hs.allows hsstate
        · exact ((Bool.and_eq_true _ _).mp hboth).2
      · by_cases hcold : state = .cold
        · exact Or.inl hcold
        · refine Or.inr (hspared (hsstate ▸ hcold) ?_ ?_)
          · rw [hsstate]
            rcases hstate with rfl | rfl | rfl <;> decide
          · rw [hsstate]
            rcases hrestore.resolve_left hcold with rfl | hboth
            · exact Or.inl rfl
            · exact Or.inr (hmissing ((Bool.and_eq_true _ _).mp hboth).1)
    · refine Triple.weaken (henter rfl) (fun t h ↦ ⟨⟨h.1, ?_⟩, h.2.2⟩) fun _ _ h ↦ h
      rw [h.2.1]
      exact h.2.2.usable
  · obtain rfl : state = .warm := hstate.resolve_right fun h ↦
      hrestore (h.elim (fun h ↦ Or.inr (Or.inl h)) Or.inl)
    refine Triple.weaken (henter rfl) ?_ fun _ _ h ↦ h
    rintro _ rfl
    refine ⟨hs, ?_⟩
    rcases hs.allows hsstate with hready | ⟨hnone, hcandidates⟩
    · exact hready
    · -- a volume that is missing has no snapshot, or there would be a restore
      cases hm : missing with
      | true =>
        exact absurd (Or.inr (Or.inr ((Bool.and_eq_true _ _).mpr ⟨hm, hcandidates⟩))) hrestore
      | false => exact absurd hnone (hpresent rfl hm)

theorem triple_loadWorkspace : Triple p (loadWorkspace call) fun r s ↦
    p s ∧ ∀ loaded, r = .ok loaded → loaded = s := by
  refine Triple.attempt ?_ (fun _ _ _ _ h ↦ absurd h nofun) (fun _ _ h ↦ ⟨h, nofun⟩)
    fun _ _ h ↦ ⟨h, nofun⟩
  rintro - s hs a t h
  obtain ⟨rfl, rfl⟩ := Prod.mk.inj (Except.ok.inj h)
  refine ⟨hs, ?_⟩
  rintro _ hloaded
  exact (Except.ok.inj hloaded).symm

/-- The beginning of a call: the signal is looked at, and the row is read. -/
theorem triple_begin {α : Type} {f : ManagedWorkspace τ → LifecycleProgram τ α}
    {q : Except (Halt (FileError JsString)) α → ManagedWorkspace τ → Prop}
    (hf : Triple (fun t ↦ t = { s with aborted := false }) (f { s with aborted := false }) q)
    (hstop : ∀ aborted halt, q (.error halt) { s with aborted := aborted }) :
    Triple (fun t ↦ t = s) (do
      noteAbort call .start
      throwIfAborted
      let workspace ← loadWorkspace call
      f workspace) q := by
  refine Triple.bind (r := fun _ t ↦ ∃ aborted, t = { s with aborted := aborted })
    (Triple.modify ?_) (fun _ ↦ ?_) fun halt t ⟨aborted, h⟩ ↦ h ▸ hstop aborted halt
  · rintro _ rfl
    exact ⟨_, rfl⟩
  refine Triple.bind (r := fun r t ↦ match r with
    | .ok _ => t = { s with aborted := false }
    | .error halt => q (.error halt) t) (triple_throwIfAborted ?_ ?_) (fun _ ↦ ?_) fun _ _ h ↦ h
  · rintro _ ⟨aborted, rfl⟩ rfl
    rfl
  · rintro _ ⟨aborted, rfl⟩ -
    exact hstop aborted _
  refine Triple.bind triple_loadWorkspace (fun loaded t h ↦ ?_) fun halt t h ↦ h.1 ▸ hstop false halt
  obtain rfl := (h.2 loaded rfl).trans h.1
  exact hf t h.1

/-- **A `prepare`** under the condition: it stops in a sound state, and where it returns the
workspace is in use. -/
theorem triple_prepare (workspaceId : JsString) :
    Triple (fun s ↦ Sound C O T identity latest s ∧ Spared s call)
      (prepare C O T workspaceId identity call) (Going.Ends C O T identity latest fun _ s ↦
        Sound C O T identity latest s ∧ s.state = .inUse) := by
  refine Triple.of_eq fun s ⟨hs, hspared⟩ ↦ triple_begin ?_ fun aborted _ ↦ hs.abort aborted
  refine Triple.ite (fun hbind ↦ absurd (hbind.symm.trans hs.1.managed) (by decide)) fun _ ↦ ?_
  refine Going.bind (q := fun _ t ↦ t = { s with aborted := false } ∧ s.state ≠ .corrupt)
    (Triple.ite (fun _ ↦ Triple.throw ?_) fun hne ↦ Triple.pure fun t h ↦ ⟨h, hne⟩) fun _ ↦
      Triple.given fun hcorrupt ↦ ?_
  · rintro _ rfl
    exact hs.abort false
  refine Going.bind (q := fun state t ↦ (Going C O T identity latest call t ∧ t.state = state) ∧
    (state ≠ .error ∧ state ≠ .corrupt)) (Triple.ite (fun herror ↦ ?_) fun herror ↦ ?_) fun state ↦
      Triple.given fun hstate ↦ ?_
  · refine Triple.weaken triple_leaveError ?_ fun _ _ h ↦ h
    rintro _ rfl
    exact ⟨⟨hs.abort false, rfl, hspared⟩, herror⟩
  · refine Triple.pure ?_
    rintro _ rfl
    exact ⟨⟨⟨hs.abort false, rfl, hspared⟩, rfl⟩, herror, hcorrupt⟩
  exact Going.bind (triple_leaveUse hstate) fun _ ↦ Triple.given fun hstate' ↦
    Going.bind triple_missingWarmVolume fun _ ↦ triple_enterUse hstate'

/-! ## Storing a snapshot -/

/-- A `create` that returns leaves a current generation. -/
theorem triple_create_hasCandidates {c : CreateCall} :
    Triple (fun _ ↦ True) (create C O identity c) (Returning fun _ d ↦ hasCandidates d = true) := by
  have hcandidates : ∀ d : Snapshots, (d .current).isSome = true → hasCandidates d = true := by
    intro d h
    rw [hasCandidates, h]
    rfl
  have hremove : ∀ outcome (name : SnapshotFile), SnapshotFile.current ≠ name →
      Triple (fun d ↦ (d .current).isSome = true)
        (Files.remove outcome name : SnapshotProgram Unit)
        (Returning fun _ d ↦ (d .current).isSome = true) := by
    refine fun outcome name hne ↦ Files.triple_remove (fun _ d h ↦ ?_) (fun _ _ _ ↦ trivial)
      fun _ _ _ ↦ trivial
    dsimp only [Returning]
    rwa [Function.update_of_ne hne]
  unfold create
  refine Returning.bind Returning.of_true fun _ ↦ Returning.bind Returning.of_true fun _ ↦
    Returning.bind Returning.of_true fun _ ↦ ?_
  refine Returning.bind (q := fun _ (d : Snapshots) ↦ (d .current).isSome = true)
    (Triple.ensuring (r := Returning fun _ d ↦ (d .current).isSome = true) ?_ (fun _ ↦ ?_)
      (fun e d _ ↦ ?_) fun _ _ ↦ trivial) fun _ ↦ Triple.pure fun d h ↦ hcandidates d h
  · refine Returning.bind Returning.of_true fun _ ↦ Returning.bind Returning.of_true fun _ ↦
      Returning.bind Returning.of_true fun _ ↦ Returning.bind Returning.of_true fun _ ↦
        Returning.bind Returning.of_true fun _ ↦ Returning.bind Returning.of_true fun _ ↦ ?_
    refine Returning.bind (q := fun _ (d : Snapshots) ↦ (d .current).isSome = true)
      (Files.triple_rename (fun _ d _ content _ ↦ ?_) (fun _ _ _ _ ↦ trivial) (fun _ _ _ ↦ trivial)
        fun _ _ _ ↦ trivial) fun _ ↦ ?_
    · dsimp only [Returning]
      rw [Function.update_self]
      rfl
    · exact Returning.bind (q := fun _ (d : Snapshots) ↦ (d .current).isSome = true)
        (Files.triple_pass (fun _ _ h ↦ h) (fun _ _ _ ↦ trivial) fun _ _ _ ↦ trivial) fun _ ↦
          hremove _ _ (by decide)
  · refine Triple.weaken (hremove _ _ (by decide)) (fun _ h ↦ h) fun r d h ↦ ?_
    cases r with
    | ok _ => exact h
    | error halt => trivial
  · cases ((Files.remove _ _ : SnapshotProgram PUnit).run d).1 <;> trivial

/-- Nothing has changed but the volume and the signal, and a run would find the same. -/
def Looked (T : Tar τ) (s t : ManagedWorkspace τ) : Prop :=
  Touched s t ∧ t.contents T = s.contents T

theorem Looked.refl (s : ManagedWorkspace τ) : Looked T s s := ⟨Touched.refl s, rfl⟩

theorem Looked.trans {s t u : ManagedWorkspace τ} (hst : Looked T s t) (htu : Looked T t u) :
    Looked T s u := ⟨hst.1.trans htu.1, htu.2.trans hst.2⟩

theorem looked_command {effect : Option τ → Option τ}
    (heffect : ∀ volume : Option τ, (effect volume).getD T.empty = volume.getD T.empty) :
    Evolves (Looked T) (command call point effect) :=
  evolves_command Looked.refl (fun _ _ _ ↦ Looked.trans) (fun _ ↦ ⟨rfl, rfl⟩)
    fun s ↦ ⟨rfl, heffect s.volume⟩

/-- An export is of what a run would find. -/
theorem triple_exportWorkspace :
    Triple (fun t ↦ t = s) (exportWorkspace T call) fun r t ↦ Looked T s t ∧
      ∀ archive, r = .ok archive → archive = T.pack (t.contents T) := by
  have hmoves : ∀ {point : LifecyclePoint} {effect : Option τ → Option τ},
      (∀ volume : Option τ, (effect volume).getD T.empty = volume.getD T.empty) →
      Triple (Looked T s) (command call point effect) fun _ t ↦ Looked T s t :=
    fun heffect t ht ↦ ht.trans (looked_command heffect t)
  unfold exportWorkspace ensureVolume
  refine Triple.bind (r := fun _ t ↦ Looked T s t) ?_ (fun _ ↦ ?_) fun _ _ h ↦ ⟨h, nofun⟩
  · refine Triple.bind (r := fun _ t ↦ Looked T s t)
      (Triple.weaken (hmoves fun volume ↦ ?_) ?_ fun _ _ h ↦ h) (fun _ ↦ ?_) fun _ _ h ↦ h
    · cases volume <;> rfl
    · rintro _ rfl
      exact Looked.refl _
    · exact Triple.bind (hmoves fun _ ↦ rfl) (fun _ ↦ hmoves fun _ ↦ rfl) fun _ _ h ↦ h
  · refine Triple.bind (hmoves fun _ ↦ rfl) (fun _ ↦ Triple.gets fun t ht ↦ Triple.pure ?_)
      fun _ _ h ↦ ⟨h, nofun⟩
    rintro _ rfl
    refine ⟨ht, ?_⟩
    rintro _ harchive
    exact (Except.ok.inj harchive).symm

/-- A workspace of which a snapshot is made. -/
structure Snapshotting (C : NodeCrypto) (O : SnapshotOptions) (T : Tar τ) (identity : JsString)
    (latest : τ) (s : ManagedWorkspace τ) : Prop where
  recorded : Recorded C O T identity latest s
  state : s.state = .snapshotting
  usable : Usable C O T identity latest s

theorem Snapshotting.sound (h : Snapshotting C O T identity latest s) :
    Sound C O T identity latest s := by
  refine ⟨h.recorded, ?_⟩
  rw [h.state]
  exact h.usable

/-- The job stores what a run would find. -/
theorem triple_snapshotJob :
    Triple (fun s ↦ Snapshotting C O T identity latest s ∧ Ready C O T identity latest s)
      (snapshotJob C O T identity call) fun r s ↦ Snapshotting C O T identity latest s ∧
        Ready C O T identity latest s ∧ ∀ record, r = .ok record → hasCandidates s.snapshots = true := by
  unfold snapshotJob
  refine Triple.bind (r := fun _ s ↦ Snapshotting C O T identity latest s ∧
      Ready C O T identity latest s) (triple_still (fun _ h ↦ h) fun _ h _ ↦ h) (fun _ ↦ ?_)
    fun _ _ h ↦ ⟨h.1, h.2, nofun⟩
  refine Triple.bind (r := fun r s ↦ (Snapshotting C O T identity latest s ∧
      Ready C O T identity latest s) ∧ ∀ archive, r = .ok archive → archive = T.pack (s.contents T))
    (Triple.of_eq fun s h ↦ Triple.weaken triple_exportWorkspace (fun _ h ↦ h)
      fun r t ⟨hlooked, harchive⟩ ↦ ⟨?_, harchive⟩) (fun archive ↦ ?_)
    fun _ _ h ↦ ⟨h.1.1, h.1.2, nofun⟩
  · have hready : Ready C O T identity latest t := by
      rw [Ready, hlooked.2, hlooked.1]
      exact h.2
    refine ⟨⟨hlooked.1.recorded h.1.recorded, ?_, hready.usable⟩, hready⟩
    rw [hlooked.1]
    exact h.1.state
  refine Triple.bind (r := fun _ s ↦ Snapshotting C O T identity latest s ∧
      Ready C O T identity latest s) (Triple.modify fun s h ↦ ?_) (fun _ ↦ ?_)
    fun _ _ h ↦ ⟨h.1, h.2, nofun⟩
  · obtain ⟨⟨hs, hready⟩, harchive⟩ := h
    refine ⟨⟨⟨hs.recorded.managed, hs.recorded.expected, fun a ha ↦ ?_⟩, hs.state, hs.usable⟩,
      hready⟩
    rcases List.mem_append.mp ha with hold | hnew
    · exact hs.recorded.captured a hold
    · rw [List.mem_singleton.mp hnew]
      exact ⟨s.contents T, harchive archive rfl, hready⟩
  · refine Triple.zoom triple_create_hasCandidates (fun _ _ ↦ trivial) fun r s d ⟨hs, hready⟩ hd ↦ ?_
    refine ⟨⟨⟨hs.recorded.managed, hs.recorded.expected, hs.recorded.captured⟩, hs.state,
      Ready.usable hready⟩, hready, ?_⟩
    rintro record rfl
    exact hd

theorem triple_removeWorkspace :
    Triple (fun s ↦ Snapshotting C O T identity latest s ∧ hasCandidates s.snapshots = true)
      (removeWorkspace call) fun _ s ↦
        Snapshotting C O T identity latest s ∧ hasCandidates s.snapshots = true := by
  have hcarry : Triple (fun s ↦ Snapshotting C O T identity latest s ∧
      hasCandidates s.snapshots = true) (carry call .removeVolume fun _ ↦ none) fun _ s ↦
      Snapshotting C O T identity latest s ∧ hasCandidates s.snapshots = true := by
    refine triple_carry (fun _ s h ↦ ⟨⟨?_, h.1.state, usable_of_none rfl h.2⟩, h.2⟩) fun _ _ h _ ↦ h
    exact ⟨h.1.recorded.managed, h.1.recorded.expected, h.1.recorded.captured⟩
  have hrescue : Triple (fun s ↦ Snapshotting C O T identity latest s ∧
      hasCandidates s.snapshots = true)
      (rescue (do carry call .removeVolume fun _ ↦ none; pure true) fun _ ↦ pure false) fun _ s ↦
      Snapshotting C O T identity latest s ∧ hasCandidates s.snapshots = true :=
    Triple.rescue (r := fun _ s ↦ Snapshotting C O T identity latest s ∧
      hasCandidates s.snapshots = true) (Triple.bind hcarry (fun _ ↦ Triple.pure fun _ h ↦ h)
        fun _ _ h ↦ h) (fun _ _ h ↦ h) (fun _ ↦ Triple.pure fun _ h ↦ h) fun _ h ↦ h
  unfold removeWorkspace
  refine Triple.bind hrescue (fun removed ↦ ?_) fun _ _ h ↦ h
  exact Triple.bind (r := fun _ s ↦ Snapshotting C O T identity latest s ∧
    hasCandidates s.snapshots = true) (triple_still (fun _ h ↦ h) fun _ h _ ↦ h)
    (fun _ ↦ Triple.pure fun _ h ↦ h) fun _ _ h ↦ h

/-- The `try` of a `checkpoint`. -/
theorem triple_storeSnapshot :
    Triple (fun s ↦ Snapshotting C O T identity latest s ∧ Ready C O T identity latest s)
      (storeSnapshot C O T identity call) fun r s ↦
      match r with
      | .ok _ => Sound C O T identity latest s
      | .error _ => Snapshotting C O T identity latest s := by
  unfold storeSnapshot
  refine Triple.bind triple_snapshotJob (fun record ↦ Triple.ite (fun hcold ↦ ?_) fun hcold ↦ ?_)
    fun _ _ h ↦ h.1
  · refine Triple.bind (Triple.weaken triple_removeWorkspace
      (fun s h ↦ ⟨h.1, h.2.2 record rfl⟩) fun _ _ h ↦ h) (fun _ ↦ ?_) fun _ _ h ↦ h.1
    refine Triple.bind (r := fun r s ↦
      match r with
      | .ok _ => Sound C O T identity latest s
      | .error _ => Snapshotting C O T identity latest s)
      (triple_transition (fun s h hstate ↦ ?_) fun _ h _ ↦ h.1) (fun _ ↦ Triple.pure fun _ h ↦ h)
      fun _ _ h ↦ h
    refine h.1.sound.change ?_ h.2
    rw [hstate]
    decide
  · refine Triple.bind (r := fun r s ↦
      match r with
      | .ok _ => Sound C O T identity latest s
      | .error _ => Snapshotting C O T identity latest s)
      (triple_transition (fun s h hstate ↦ ?_) fun _ h _ ↦ h.1) (fun _ ↦ Triple.pure fun _ h ↦ h)
      fun _ _ h ↦ h
    refine h.1.sound.change ?_ h.1.usable
    rw [hstate]
    decide

/-- **A `checkpoint`** leaves a sound state wherever it stops. -/
theorem triple_checkpoint (call : LifecycleCall τ) :
    Triple (Sound C O T identity latest) (checkpoint C O T identity call) fun _ s ↦
      Sound C O T identity latest s := by
  refine Triple.of_eq fun s hs ↦ triple_begin ?_ fun aborted _ ↦ hs.abort aborted
  refine Triple.ite (fun hbind ↦ absurd (hbind.symm.trans hs.1.managed) (by decide)) fun _ ↦ ?_
  refine Triple.bind (r := fun r s ↦
    match r with
    | .ok _ => Snapshotting C O T identity latest s ∧ Ready C O T identity latest s
    | .error _ => Sound C O T identity latest s) (triple_transition ?_ ?_) (fun _ ↦ ?_)
    fun _ _ h ↦ h
  · rintro _ rfl hstate
    have hready : Ready C O T identity latest s := hs.allows hstate
    refine ⟨⟨(hs.abort false).1.change ?_, rfl, Ready.usable hready⟩, hready⟩
    rw [hstate]
    decide
  · rintro _ rfl _
    exact hs.abort false
  · refine Triple.rescue triple_storeSnapshot (fun _ _ h ↦ h) (fun e ↦ ?_) fun _ h ↦ h.sound
    refine Triple.bind (r := fun _ s ↦ Sound C O T identity latest s)
      (triple_transition (fun s h hstate ↦ ?_) fun _ h _ ↦ h.sound)
      (fun _ ↦ Triple.throw fun _ h ↦ h) fun _ _ h ↦ h
    refine h.sound.change ?_ h.usable
    rw [hstate]
    decide

/-! ## Every history -/

variable {h : LifecycleHistory τ}

/-- The invariant of a history. -/
structure LifecycleHistory.Safe (C : NodeCrypto) (O : SnapshotOptions) (T : Tar τ)
    (identity : JsString) (h : LifecycleHistory τ) : Prop where
  sound : Sound C O T identity h.latest h.workspace.beginCall
  admitted : ∀ a ∈ h.admissions, Current C O T identity a.latest a.recovered a.contents
  captured : ∀ c ∈ h.captures, ∃ contents, c.archive = T.pack contents ∧
    Current C O T identity c.latest c.recovered contents

theorem Sound.beginCall (h : Sound C O T identity latest s) :
    Sound C O T identity latest s.beginCall :=
  ⟨⟨h.1.managed, h.1.expected, fun _ ha ↦ absurd ha List.not_mem_nil⟩, h.2⟩

/-- What a run finds that is let in is what it may leave. -/
theorem Sound.letIn (h : Sound C O T identity latest s) (hstate : s.state = .inUse) :
    Sound C O T identity (s.contents T) { s with recovered := [] }.beginCall := by
  refine ⟨⟨h.1.managed, h.1.expected, fun _ ha ↦ absurd ha List.not_mem_nil⟩, ?_⟩
  have hready : Allows C O T identity (s.contents T) { s with recovered := [] }.beginCall .inUse :=
    Or.inl rfl
  rwa [← hstate] at hready

/-- A run that is let in may write what it likes. -/
theorem Sound.write (h : Sound C O T identity latest s.beginCall) (hstate : s.state = .inUse)
    (tree : τ) : Sound C O T identity tree { s with volume := some tree }.beginCall := by
  refine ⟨⟨h.1.managed, h.1.expected, fun _ ha ↦ absurd ha List.not_mem_nil⟩, ?_⟩
  have hready : Allows C O T identity tree { s with volume := some tree }.beginCall .inUse :=
    Or.inl rfl
  rwa [← hstate] at hready

/-- One step under the condition. -/
theorem LifecycleHistory.Safe.step (hh : h.Safe C O T identity) (i : LifecycleStep τ)
    (hi : Unaborted h i) : (h.step C O T workspaceId identity i).Safe C O T identity := by
  cases i with
  | prepare call =>
    have hcall := triple_prepare workspaceId h.workspace.beginCall ⟨hh.sound, hi⟩
    rw [LifecycleHistory.step]
    rcases hrun : (prepare C O T workspaceId identity call).run h.workspace.beginCall
      with ⟨halt | prepared, s⟩
    · rw [hrun] at hcall
      exact ⟨Sound.beginCall hcall, hh.admitted, hh.captured⟩
    · rw [hrun] at hcall
      obtain ⟨hsound, hstate⟩ := hcall
      refine ⟨hsound.letIn hstate, fun a ha ↦ ?_, hh.captured⟩
      rcases List.mem_append.mp ha with hold | hnew
      · exact hh.admitted a hold
      · rw [List.mem_singleton.mp hnew]
        exact hsound.allows hstate
  | write tree =>
    rw [LifecycleHistory.step]
    split_ifs with huse
    · exact ⟨hh.sound.write huse tree, hh.admitted, hh.captured⟩
    · exact hh
  | checkpoint call =>
    have hcall := triple_checkpoint call h.workspace.beginCall hh.sound
    refine ⟨hcall.beginCall, hh.admitted, fun c hc ↦ ?_⟩
    rcases List.mem_append.mp hc with hold | hnew
    · exact hh.captured c hold
    · obtain ⟨archive, harchive, rfl⟩ := List.mem_map.mp hnew
      exact hcall.1.captured archive harchive

/-- A new workspace. -/
theorem LifecycleHistory.Safe.init :
    LifecycleHistory.Safe C O T identity { latest := T.empty } := by
  refine ⟨⟨⟨rfl, fun _ h ↦ absurd h List.not_mem_nil, fun _ h ↦ absurd h List.not_mem_nil⟩, ?_⟩,
    fun _ h ↦ absurd h List.not_mem_nil, fun _ h ↦ absurd h List.not_mem_nil⟩
  exact Or.inl (Or.inl rfl)

/-- The workspace after a history. -/
def LifecycleHistory.after (C : NodeCrypto) (O : SnapshotOptions) (T : Tar τ)
    (workspaceId identity : JsString) (steps : List (LifecycleStep τ)) : LifecycleHistory τ :=
  steps.foldl (LifecycleHistory.step C O T workspaceId identity) { latest := T.empty }

/-- **What a run finds**: in every history in which no restore that would go back to `WARM` is
aborted once there is a volume, every run is let in on what the last one has left, or on the archive
of the newest snapshot that could be read; only such contents are stored, and the state is changed
only as expected. -/
theorem workspaces_preserved {steps : List (LifecycleStep τ)}
    (hsteps : Throughout (LifecycleHistory.step C O T workspaceId identity) Unaborted
      { latest := T.empty } steps) :
    Preserved C O T identity (LifecycleHistory.after C O T workspaceId identity steps) := by
  have hsafe := Throughout.induction (p := LifecycleHistory.Safe C O T identity)
    (fun h i hh hi ↦ hh.step i hi) LifecycleHistory.Safe.init hsteps
  exact ⟨hsafe.admitted, hsafe.captured, hsafe.sound.1.expected⟩

/-! ## Two histories -/

/-- Volumes that hold a text, packed as it is. -/
def textTar : Tar Bytes where
  empty := []
  pack := id
  unpack := some

/-- A call for a volume that holds `[b]`. -/
def callFor (b : UInt8) : LifecycleCall Bytes where
  torn := fun _ ↦ []
  snapshot := oneByte b fun _ ↦ .succeeds

/-- A `checkpoint` after which the Manager dies: the volume is removed, the row is not changed. -/
def removedVolume (b : UInt8) : LifecycleCall Bytes :=
  { callFor b with
    makeCold := true
    faults := fun p ↦ if p = .update .snapshotting .cold then .dies else .succeeds }

/-- The Manager dies once the volume has been removed, and the next run finds what is restored. -/
def removedLate : List (LifecycleStep Bytes) :=
  [.prepare (callFor 1), .write [1], .checkpoint (callFor 1), .prepare (callFor 2), .write [2],
    .checkpoint (removedVolume 2), .prepare (callFor 2), .write [3], .checkpoint (callFor 3)]

theorem workspaces_preserved_removedLate :
    Throughout (LifecycleHistory.step threeBytes oneKey textTar (js "w") (js "workspace")) Unaborted
        { latest := textTar.empty } removedLate ∧
      Preserved threeBytes oneKey textTar (js "workspace")
        (LifecycleHistory.after threeBytes oneKey textTar (js "w") (js "workspace") removedLate) :=
  have hspared : Throughout (LifecycleHistory.step threeBytes oneKey textTar (js "w")
      (js "workspace")) Unaborted { latest := textTar.empty } removedLate := by
    refine ⟨?_, trivial, trivial, ?_, trivial, trivial, ?_, trivial, trivial, trivial⟩
    all_goals exact fun _ _ _ ↦ Or.inl fun _ _ ↦ rfl
  ⟨hspared, workspaces_preserved hspared⟩

/-- The volume has been removed, and the signal aborts while the archive is extracted. -/
def abortedImport : List (LifecycleStep Bytes) :=
  [.prepare (callFor 1), .write [1], .checkpoint (removedVolume 1),
    .prepare { callFor 1 with aborts := fun p ↦ p = .extract }, .prepare (callFor 1)]

/-- The volume the import has made is taken for the workspace. -/
theorem not_preserved_abortedImport :
    ¬Preserved threeBytes oneKey textTar (js "workspace")
      (LifecycleHistory.after threeBytes oneKey textTar (js "w") (js "workspace")
        abortedImport) := by
  intro h
  -- the last run is let in on an empty volume; the run before it has left `[1]`
  have hadmissions : (LifecycleHistory.after threeBytes oneKey textTar (js "w") (js "workspace")
      abortedImport).admissions.map (fun a ↦ (a.contents, a.latest, a.recovered.map
        Recovery.archive)) = [([], [], []), ([], [1], [[1]])] := by decide +kernel
  obtain ⟨a, ha, heq⟩ := List.mem_map.mp (hadmissions ▸ List.mem_cons_of_mem _ List.mem_cons_self :
    (([], [1], [[1]]) : Bytes × Bytes × List Bytes) ∈ _)
  obtain ⟨hcontents, hrest⟩ := Prod.mk.inj heq
  obtain ⟨hlatest, hrecovered⟩ := Prod.mk.inj hrest
  have hcurrent := h.admitted a ha
  rw [hcontents, hlatest] at hcurrent
  rcases hcurrent with hleft | ⟨r, hr, -, hunpack⟩
  · exact absurd hleft (by decide)
  · have harchive := List.mem_map_of_mem (f := Recovery.archive) hr
    rw [hrecovered] at harchive
    rw [List.mem_singleton.mp harchive] at hunpack
    exact absurd hunpack (by decide)

end LiteHarness.Workspace
