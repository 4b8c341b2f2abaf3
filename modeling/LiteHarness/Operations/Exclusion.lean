import LiteHarness.Foundation.Suspension
import LiteHarness.Operations.InstanceLock

/-!
# One manager at a time

Who may remove the directory is decided when it is read. As long as what is removed is what was
read, the decision stays right, for three reasons: a dead owner stays dead; a directory that was
stale without a record still is, unless a file was made in it or removed from it (`LockDisk.Aged`);
and where a file was removed, the directory is on its way out already (`LockDisk.Doomed`). So the
record of a living process stays where it is, and there is room for one record only.
-/

namespace LiteHarness.Operations

open Foundation

/-! ## Facts about the disk -/

/-- The directory and its file were made before. -/
def LockDirectory.Below (d : LockDirectory) (next : ℕ) : Prop :=
  d.inode < next ∧ ∀ f ∈ d.file, f.id < next

theorem LockDirectory.Below.mono {d : LockDirectory} {n n' : ℕ} (h : d.Below n) (hle : n ≤ n') :
    d.Below n' :=
  ⟨h.1.trans_le hle, fun f hf ↦ (h.2 f hf).trans_le hle⟩

namespace LockDisk

variable {D D' : LockDisk}

/-- The process is the recorded owner. -/
def Owns (D : LockDisk) (pid : ℕ) : Prop := ∃ d, D.lock = some d ∧ d.owner = some pid

/-- The file is in the directory, without an owner, since it was made. -/
def Draft (D : LockDisk) (file opened : ℕ) : Prop :=
  ∃ d, D.lock = some d ∧ d.file = some { id := file } ∧ d.mtime = opened

/-- Where the file of the directory was removed, the directory is being removed. -/
def Doomed (D : LockDisk) (s : LockDirectory) : Prop :=
  s.file.isSome → ∀ d, D.lock = some d → d.inode = s.inode → d.file = none → d.doomed = true

/-- Where the directory is as it was, it is stale or being removed. -/
def Aged (D : LockDisk) (s : LockDirectory) : Prop :=
  ∀ d, D.lock = some d → d.inode = s.inode → d.file = s.file → d.doomed = true ∨ D.Stale d

/-- What is always true of the disk. -/
structure Ok (D : LockDisk) (started : ℕ → Prop) : Prop where
  below : ∀ d, D.lock = some d → d.Below D.next
  past : ∀ d, D.lock = some d → d.mtime ≤ D.now
  doomed : ∀ d, D.lock = some d → d.doomed = true → d.file = none
  known : ∀ d, D.lock = some d → ∀ owner, d.owner = some owner → started owner

/-- What a step of the process does to the facts that others rely on. -/
structure Keeps (pid : ℕ) (alive mine : ℕ → Prop) (D D' : LockDisk) : Prop where
  next : D.next ≤ D'.next
  now : D.now ≤ D'.now
  owns : ∀ other, other ≠ pid → alive other → D.Owns other → D'.Owns other
  back : ∀ other, other ≠ pid → D'.Owns other → D.Owns other
  draft : ∀ file opened, ¬mine file → D.Draft file opened →
    D'.Draft file opened ∨ opened + graceMs ≤ D'.now
  doomed : ∀ s : LockDirectory, s.Below D.next → D.Doomed s → D'.Doomed s
  aged : ∀ s : LockDirectory, s.Below D.next → s.owner = none → D.Aged s → D'.Aged s

variable {pid : ℕ} {alive mine : ℕ → Prop}

theorem Keeps.refl : Keeps pid alive mine D D :=
  ⟨le_rfl, le_rfl, fun _ _ _ h ↦ h, fun _ _ h ↦ h, fun _ _ _ h ↦ Or.inl h, fun _ _ h ↦ h,
    fun _ _ _ h ↦ h⟩

/-- Time passes. -/
theorem keeps_elapse (ms : ℕ) : Keeps pid alive mine D { D with now := D.now + ms } where
  next := le_rfl
  now := Nat.le_add_right _ _
  owns _ _ _ h := h
  back _ _ h := h
  draft _ _ _ h := Or.inl h
  doomed _ _ h := h
  aged _ _ _ h d hd hinode hfile :=
    (h d hd hinode hfile).imp_right fun hstale ↦ le_trans hstale (Nat.le_add_right _ _)

theorem keeps_mkdir (hlock : D.lock = none) : Keeps pid alive mine D D.mkdir where
  next := Nat.le_succ _
  now := le_rfl
  owns other _ _ h := by
    obtain ⟨d, hd, -⟩ := h
    exact absurd (hd.symm.trans hlock) (Option.some_ne_none d)
  back other _ h := by
    obtain ⟨d, hd, howner⟩ := h
    obtain rfl := Option.some.inj hd
    exact absurd howner (Option.some_ne_none other).symm
  draft file opened _ h := by
    obtain ⟨d, hd, -⟩ := h
    exact absurd (hd.symm.trans hlock) (Option.some_ne_none d)
  doomed s hbelow _ _ d hd hinode _ := by
    obtain rfl := Option.some.inj hd
    exact absurd hinode hbelow.1.ne'
  aged s hbelow _ _ d hd hinode _ := by
    obtain rfl := Option.some.inj hd
    exact absurd hinode hbelow.1.ne'

theorem keeps_openFile {d : LockDirectory} (hlock : D.lock = some d) (hfile : d.file = none) :
    Keeps pid alive mine D (D.openFile d) where
  next := Nat.le_succ _
  now := le_rfl
  owns other _ _ h := by
    obtain ⟨d', hd', howner⟩ := h
    obtain rfl := Option.some.inj (hlock.symm.trans hd')
    rw [LockDirectory.owner, hfile] at howner
    exact absurd howner (Option.some_ne_none other).symm
  back other _ h := by
    obtain ⟨d', hd', howner⟩ := h
    obtain rfl := Option.some.inj hd'
    exact absurd howner (Option.some_ne_none other).symm
  draft file opened _ h := by
    obtain ⟨d', hd', hdraft, -⟩ := h
    obtain rfl := Option.some.inj (hlock.symm.trans hd')
    exact absurd (hdraft.symm.trans hfile) (Option.some_ne_none _)
  doomed s _ _ _ d' hd' _ hnone := by
    obtain rfl := Option.some.inj hd'
    exact absurd hnone (Option.some_ne_none _)
  aged s hbelow _ _ d' hd' _ hsame := by
    obtain rfl := Option.some.inj hd'
    exact absurd (hbelow.2 _ hsame.symm) (lt_irrefl _)

theorem lock_writeFile {file opened : ℕ} (h : D.Draft file opened) (pid : ℕ) :
    ∃ d, D.lock = some d ∧ d.file = some { id := file } ∧ d.mtime = opened ∧
      (D.writeFile file pid).lock = some { d with file := some ⟨file, some pid⟩ } := by
  obtain ⟨d, hd, hfile, hopened⟩ := h
  refine ⟨d, hd, hfile, hopened, ?_⟩
  rw [writeFile, hd, Option.map_some, hfile, if_pos]
  exact decide_eq_true rfl

/-- **An owner is written** into the file of the process. -/
theorem keeps_writeFile {file opened : ℕ} (h : D.Draft file opened) :
    Keeps pid alive (· = file) D (D.writeFile file pid) := by
  obtain ⟨d, hlock, hfile, -, hlock'⟩ := lock_writeFile h pid
  refine ⟨le_rfl, le_rfl, ?_, ?_, ?_, ?_, ?_⟩
  · rintro other - - ⟨d', hd', howner⟩
    obtain rfl := Option.some.inj (hlock.symm.trans hd')
    rw [LockDirectory.owner, hfile] at howner
    exact absurd howner (Option.some_ne_none other).symm
  · rintro other hne ⟨d', hd', howner⟩
    obtain rfl := Option.some.inj (hlock'.symm.trans hd')
    exact absurd (Option.some.inj howner).symm hne
  · rintro file' opened' hne ⟨d', hd', hfile', -⟩
    obtain rfl := Option.some.inj (hlock.symm.trans hd')
    exact absurd (congrArg OwnerFile.id (Option.some.inj (hfile.symm.trans hfile'))).symm hne
  · intro s _ _ _ d' hd' _ hnone
    obtain rfl := Option.some.inj (hlock'.symm.trans hd')
    exact absurd hnone (Option.some_ne_none _)
  · -- What was seen had no owner.
    intro s _ howner _ d' hd' _ hsame
    obtain rfl := Option.some.inj (hlock'.symm.trans hd')
    rw [LockDirectory.owner, ← hsame] at howner
    exact absurd howner (Option.some_ne_none pid)

/-- **A file is removed** whose owner is dead or the process itself, or which was empty for the
grace period. -/
theorem keeps_unlink
    (hmay : ∀ d f, D.lock = some d → d.file = some f →
      (∀ owner, f.owner = some owner → owner = pid ∨ ¬alive owner) ∧ (f.owner = none → D.Stale d)) :
    Keeps pid alive mine D D.unlink := by
  rcases hlock : D.lock with _ | d
  · have hsame : D.unlink = D := by
      rw [unlink, hlock, Option.map_none, ← hlock]
    exact hsame.symm ▸ .refl
  rcases hfile : d.file with _ | f
  · have hsame : D.unlink = D := by
      rw [unlink, hlock, Option.map_some, hfile, Option.isSome_none, if_neg Bool.false_ne_true, ← hlock]
    exact hsame.symm ▸ .refl
  have hlock' : D.unlink.lock = some { d with mtime := D.now, file := none, doomed := true } := by
    rw [unlink, hlock, Option.map_some, hfile, Option.isSome_some, if_pos rfl]
  obtain ⟨howned, hempty⟩ := hmay d f hlock hfile
  refine ⟨le_rfl, le_rfl, ?_, ?_, ?_, ?_, ?_⟩
  · rintro other hne halive ⟨d', hd', howner⟩
    obtain rfl := Option.some.inj (hlock.symm.trans hd')
    rw [LockDirectory.owner, hfile] at howner
    rcases howned other howner with heq | hdead
    · exact absurd heq hne
    · exact absurd halive hdead
  · rintro other - ⟨d', hd', howner⟩
    obtain rfl := Option.some.inj (hlock'.symm.trans hd')
    exact absurd howner (Option.some_ne_none other).symm
  · rintro file opened - ⟨d', hd', hdraft, rfl⟩
    obtain rfl := Option.some.inj (hlock.symm.trans hd')
    obtain rfl := Option.some.inj (hfile.symm.trans hdraft)
    exact Or.inr (hempty rfl)
  · intro s _ _ _ d' hd' _ _
    obtain rfl := Option.some.inj (hlock'.symm.trans hd')
    rfl
  · intro s _ _ _ d' hd' _ _
    obtain rfl := Option.some.inj (hlock'.symm.trans hd')
    exact Or.inl rfl

theorem keeps_rmdir (h : ∀ d, D.lock = some d → d.file = none) :
    Keeps pid alive mine D D.rmdir := by
  refine ⟨le_rfl, le_rfl, ?_, ?_, ?_, ?_, ?_⟩
  · rintro other - - ⟨d, hd, howner⟩
    rw [LockDirectory.owner, h d hd] at howner
    exact absurd howner (Option.some_ne_none other).symm
  · rintro other - ⟨d, hd, -⟩
    exact absurd hd (Option.some_ne_none d).symm
  · rintro file opened - ⟨d, hd, hfile, -⟩
    exact absurd ((h d hd).symm.trans hfile) (Option.some_ne_none _).symm
  · exact fun s _ _ _ d hd ↦ absurd hd (Option.some_ne_none d).symm
  · exact fun s _ _ _ d hd ↦ absurd hd (Option.some_ne_none d).symm

/-! ## The disk stays in order -/

variable {started : ℕ → Prop}

theorem ok_mkdir : D.mkdir.Ok started where
  below d hd := by
    obtain rfl := Option.some.inj hd
    exact ⟨Nat.lt_succ_self D.next, nofun⟩
  past d hd := by
    obtain rfl := Option.some.inj hd
    exact le_rfl
  doomed d hd := by
    obtain rfl := Option.some.inj hd
    exact nofun
  known d hd := by
    obtain rfl := Option.some.inj hd
    exact nofun

theorem Ok.openFile (h : D.Ok started) {d : LockDirectory} (hlock : D.lock = some d) :
    (D.openFile d).Ok started where
  below d' hd' := by
    obtain rfl := Option.some.inj hd'
    refine ⟨(h.below d hlock).1.trans (Nat.lt_succ_self D.next), fun f hf ↦ ?_⟩
    obtain rfl := Option.some.inj hf
    exact Nat.lt_succ_self D.next
  past d' hd' := by
    obtain rfl := Option.some.inj hd'
    exact le_rfl
  doomed d' hd' := by
    obtain rfl := Option.some.inj hd'
    exact nofun
  known d' hd' := by
    obtain rfl := Option.some.inj hd'
    exact nofun

theorem Ok.writeFile (h : D.Ok started) {file opened pid : ℕ} (hdraft : D.Draft file opened)
    (hstarted : started pid) : (D.writeFile file pid).Ok started := by
  obtain ⟨d, hlock, hfile, -, hlock'⟩ := lock_writeFile hdraft pid
  have hbelow := h.below d hlock
  refine ⟨fun d' hd' ↦ ?_, fun d' hd' ↦ ?_, fun d' hd' hdoomed ↦ ?_, fun d' hd' owner howner ↦ ?_⟩ <;>
    obtain rfl := Option.some.inj (hlock'.symm.trans hd')
  · refine ⟨hbelow.1, fun f hf ↦ ?_⟩
    obtain rfl := Option.some.inj hf
    have hid := hbelow.2 _ hfile
    exact hid
  · exact h.past d hlock
  · exact absurd (hfile.symm.trans (h.doomed d hlock hdoomed)) (Option.some_ne_none _)
  · obtain rfl := Option.some.inj howner
    exact hstarted

theorem Ok.unlink (h : D.Ok started) : D.unlink.Ok started := by
  rcases hlock : D.lock with _ | d
  · have hnone : D.unlink.lock = none := by rw [LockDisk.unlink, hlock, Option.map_none]
    refine ⟨?_, ?_, ?_, ?_⟩ <;>
      exact fun d hd ↦ absurd (hd.symm.trans hnone) (Option.some_ne_none d)
  have hlock' : D.unlink.lock = some (if d.file.isSome then
      { d with mtime := D.now, file := none, doomed := true } else d) := by
    rw [LockDisk.unlink, hlock, Option.map_some]
  split_ifs at hlock' with hfile
  · refine ⟨fun d' hd' ↦ ?_, fun d' hd' ↦ ?_, fun d' hd' _ ↦ ?_, fun d' hd' ↦ ?_⟩ <;>
      obtain rfl := Option.some.inj (hlock'.symm.trans hd')
    · exact ⟨(h.below d hlock).1, nofun⟩
    · exact le_rfl
    · rfl
    · exact nofun
  · refine ⟨fun d' hd' ↦ ?_, fun d' hd' ↦ ?_, fun d' hd' ↦ ?_, fun d' hd' ↦ ?_⟩ <;>
      obtain rfl := Option.some.inj (hlock'.symm.trans hd')
    · exact h.below d hlock
    · exact h.past d hlock
    · exact h.doomed d hlock
    · exact h.known d hlock

theorem ok_rmdir : D.rmdir.Ok started := by
  refine ⟨?_, ?_, ?_, ?_⟩ <;> exact fun d hd ↦ absurd hd (Option.some_ne_none d).symm

theorem Ok.mono (h : D.Ok started) {started' : ℕ → Prop} (hle : ∀ pid, started pid → started' pid) :
    D.Ok started' :=
  ⟨h.below, h.past, h.doomed, fun d hd owner howner ↦ hle owner (h.known d hd owner howner)⟩

theorem not_owns_unlink (pid : ℕ) : ¬D.unlink.Owns pid := by
  rintro ⟨d, hd, howner⟩
  obtain ⟨d', -, rfl⟩ := Option.map_eq_some_iff.mp hd
  split_ifs at howner with hfile
  · exact absurd howner (Option.some_ne_none pid).symm
  · rw [LockDirectory.owner, Option.not_isSome_iff_eq_none.mp hfile] at howner
    exact absurd howner (Option.some_ne_none pid).symm

theorem not_owns_rmdir (pid : ℕ) : ¬D.rmdir.Owns pid := by
  rintro ⟨d, hd, -⟩
  exact absurd hd (Option.some_ne_none d).symm

end LockDisk

/-- `acquire` did not come to `#acquired = true` yet. -/
def LockStage.Early : LockStage → Prop
  | .creating _ | .opening _ | .writing _ _ | .syncing | .reading _ | .judging _ _ | .checking _ _
  | .removing (some _) | .removingDirectory (some _) => True
  | _ => False

/-- The stages that are about a socket. -/
def LockStage.OfSocket : LockStage → Prop
  | .preparing | .probing | .unlinking | .releasingEndpoint => True
  | _ => False

namespace Contenders

variable {W W' : Contenders} {win32 : Bool}

/-! ## The invariant -/

/-- What is known at a stage. -/
def StageOk (W : Contenders) (pid : ℕ) (m : LockProcess) : Prop :=
  match m.stage with
  | .writing file opened =>
    file < W.disk.next ∧ (W.disk.Draft file opened ∨ opened + graceMs ≤ W.disk.now)
  | .syncing => W.disk.Owns pid
  | .preparing | .probing | .unlinking | .holding => W.disk.Owns pid ∧ m.acquired = true
  | .releasingEndpoint =>
    W.disk.Owns pid ∧ m.seen.bind LockDirectory.owner = some pid ∧ m.endpointOwned = true
  | .judging _ existing => existing = m.seen.bind LockDirectory.owner
  | .checking _ existing =>
    existing = m.seen.bind LockDirectory.owner ∧ ∀ owner, existing = some owner → ¬W.Alive owner
  | .removing (some _) | .removingDirectory (some _) =>
    (∀ owner, m.seen.bind LockDirectory.owner = some owner → ¬W.Alive owner) ∧
      ∀ s, m.seen = some s → s.owner = none → W.disk.Aged s
  | .removing none | .removingDirectory none => m.seen.bind LockDirectory.owner = some pid
  | _ => True

/-- What is known of a living process. -/
structure ProcessOk (win32 : Bool) (W : Contenders) (pid : ℕ) (m : LockProcess) : Prop where
  started : m.started = true
  below : ∀ s, m.seen = some s → s.Below W.disk.next
  known : ∀ owner, m.seen.bind LockDirectory.owner = some owner →
    (W.processes owner).started = true
  doomed : ∀ s, m.seen = some s → W.disk.Doomed s
  stage : StageOk W pid m
  early : m.stage.Early → m.acquired = false
  owned : m.endpointOwned = true → m.acquired = true
  socket : m.stage.OfSocket → win32 = false
  /-- Nobody else answers at the endpoint of who has the lock. -/
  clear : win32 = false → m.stage = .unlinking ∨ m.stage = .holding ∨ m.endpointOwned = true →
    W.disk.Owns pid → ∀ other, other ≠ pid → ¬W.Answers other m.socketPath

/-- **The invariant.** -/
structure Inv (win32 : Bool) (W : Contenders) : Prop where
  disk : W.disk.Ok fun pid ↦ (W.processes pid).started = true
  processes : ∀ pid, W.Alive pid → ProcessOk win32 W pid (W.processes pid)
  /-- Two processes write into two files. -/
  drafts : ∀ pid pid' file opened opened', W.Alive pid → W.Alive pid' →
    (W.processes pid).stage = .writing file opened →
    (W.processes pid').stage = .writing file opened' → pid = pid'
  removed : W.wrongful = []
  intact : W.damaged = []

theorem inv_init : Inv win32 {} where
  disk := ⟨nofun, nofun, nofun, nofun⟩
  processes _ h := absurd h Bool.false_ne_true
  drafts _ _ _ _ _ h := absurd h Bool.false_ne_true
  removed := rfl
  intact := rfl

/-! ## What the steps of one process leave to the others -/

/-- The change of the shared state by a step of a process. -/
structure Shares (pid : ℕ) (mine : ℕ → Prop) (W W' : Contenders) : Prop where
  keeps : W.disk.Keeps pid W.Alive mine W'.disk
  others : ∀ other, other ≠ pid → W'.processes other = W.processes other
  started : ∀ other, (W.processes other).started = true → (W'.processes other).started = true
  dead : ∀ other, (W.processes other).started = true → ¬W.Alive other → ¬W'.Alive other
  /-- Only the owner begins to answer. -/
  answers : ∀ other path, W'.Answers other path → W.Answers other path ∨ other = pid ∧ W'.disk.Owns pid

theorem owns_unique {D : LockDisk} {pid pid' : ℕ} (h : D.Owns pid) (h' : D.Owns pid') : pid = pid' := by
  obtain ⟨d, hd, howner⟩ := h
  obtain ⟨d', hd', howner'⟩ := h'
  obtain rfl := Option.some.inj (hd.symm.trans hd')
  exact Option.some.inj (howner.symm.trans howner')

/-- **Another process** keeps what is known of it. -/
theorem ProcessOk.shares {pid other : ℕ} {m : LockProcess} (h : ProcessOk win32 W other m)
    {mine : ℕ → Prop} (hshares : Shares pid mine W W') (hne : other ≠ pid) (halive : W.Alive other)
    (hmine : ∀ file opened, m.stage = .writing file opened → ¬mine file) :
    ProcessOk win32 W' other m := by
  have hkeeps := hshares.keeps
  have hdead : ∀ owner, m.seen.bind LockDirectory.owner = some owner → ¬W.Alive owner →
      ¬W'.Alive owner := fun owner hseen ↦ hshares.dead owner (h.known owner hseen)
  refine ⟨h.started, fun s hs ↦ (h.below s hs).mono hkeeps.next,
    fun owner howner ↦ hshares.started owner (h.known owner howner),
    fun s hs ↦ hkeeps.doomed s (h.below s hs) (h.doomed s hs), ?_, h.early, h.owned, h.socket, ?_⟩
  · have hstage := h.stage
    have howns := hkeeps.owns other hne halive
    rw [StageOk] at hstage ⊢
    rcases hcase : m.stage with _ | _ | _ | _ | ⟨file, opened⟩ | _ | _ | _ | _ | _ | ⟨_, existing⟩ |
      ⟨_, existing⟩ | (_ | _) | (_ | _) | _ | _ <;> simp only [hcase] at hstage ⊢
    · exact ⟨howns hstage.1, hstage.2⟩
    · refine ⟨hstage.1.trans_le hkeeps.next, ?_⟩
      rcases hstage.2 with hdraft | hlate
      · exact hkeeps.draft file opened (hmine file opened hcase) hdraft
      · exact Or.inr (hlate.trans hkeeps.now)
    · exact howns hstage
    · exact ⟨howns hstage.1, hstage.2⟩
    · exact ⟨howns hstage.1, hstage.2⟩
    · exact ⟨howns hstage.1, hstage.2⟩
    · exact hstage
    · exact ⟨hstage.1, fun owner howner ↦
        hdead owner (hstage.1.symm.trans howner) (hstage.2 owner howner)⟩
    · exact hstage
    · exact ⟨fun owner howner ↦ hdead owner howner (hstage.1 owner howner), fun s hs howner ↦
        hkeeps.aged s (h.below s hs) howner (hstage.2 s hs howner)⟩
    · exact hstage
    · exact ⟨fun owner howner ↦ hdead owner howner (hstage.1 owner howner), fun s hs howner ↦
        hkeeps.aged s (h.below s hs) howner (hstage.2 s hs howner)⟩
    · exact ⟨howns hstage.1, hstage.2⟩
  · intro hunix hcase howns third hthird hanswers
    rcases hshares.answers third m.socketPath hanswers with hbefore | ⟨-, howns'⟩
    · exact h.clear hunix hcase (hkeeps.back other hne howns) third hthird hbefore
    · exact hne (owns_unique howns howns')

/-! ## Steps of one process -/

theorem processes_goOn_self (pid : ℕ) (m : LockProcess) : (W.goOn pid m).processes pid = m := by
  show Function.update W.processes pid m pid = m
  rw [Function.update_self]

theorem processes_goOn_of_ne {pid other : ℕ} (hne : other ≠ pid) (m : LockProcess) :
    (W.goOn pid m).processes other = W.processes other := by
  show Function.update W.processes pid m other = W.processes other
  rw [Function.update_of_ne hne]

/-- A step of a process that does not begin to listen. -/
theorem shares_goOn {pid : ℕ} {mine : ℕ → Prop} {disk : LockDisk} {endpoints : JsString → Option ℕ}
    {wrongful damaged : List ℕ} {m : LockProcess} (hkeeps : W.disk.Keeps pid W.Alive mine disk)
    (hendpoints : ∀ path other, endpoints path = some other → W.endpoints path = some other)
    (hstarted : m.started = (W.processes pid).started) (halive : m.alive = true → W.Alive pid)
    (hlistening : m.listening = true → (W.processes pid).listening = true) :
    Shares pid mine W (goOn ⟨disk, endpoints, W.processes, wrongful, damaged⟩ pid m) := by
  have hself := processes_goOn_self (W := ⟨disk, endpoints, W.processes, wrongful, damaged⟩) pid m
  have hother : ∀ other, other ≠ pid →
      (goOn ⟨disk, endpoints, W.processes, wrongful, damaged⟩ pid m).processes other =
        W.processes other := fun other hne ↦ processes_goOn_of_ne hne m
  refine ⟨hkeeps, hother, fun other h ↦ ?_, fun other _ h h' ↦ ?_, fun other path h ↦ Or.inl ?_⟩
  · by_cases hne : other = pid
    · rw [hne, hself, hstarted, ← hne]
      exact h
    · rw [hother other hne]
      exact h
  · rw [Alive] at h'
    by_cases hne : other = pid
    · rw [hne, hself] at h'
      exact h (hne ▸ halive h')
    · rw [hother other hne] at h'
      exact h h'
  · obtain ⟨hendpoint, hlives, hlistens⟩ := h
    rw [Alive] at hlives
    refine ⟨hendpoints path other hendpoint, ?_⟩
    by_cases hne : other = pid
    · rw [hne, hself] at hlives hlistens
      exact hne ▸ ⟨halive hlives, hlistening hlistens⟩
    · rw [hother other hne] at hlives hlistens
      exact ⟨hlives, hlistens⟩

/-- **One process takes a step.** -/
theorem Inv.act (h : Inv win32 W) {pid : ℕ} {mine : ℕ → Prop} (hshares : Shares pid mine W W')
    (hmine : ∀ other, other ≠ pid → W.Alive other → ∀ file opened,
      (W.processes other).stage = .writing file opened → ¬mine file)
    (hdisk : W'.disk.Ok fun other ↦ (W.processes other).started = true)
    (hself : W'.Alive pid → ProcessOk win32 W' pid (W'.processes pid))
    (hdraft : W'.Alive pid → ∀ file opened, (W'.processes pid).stage = .writing file opened →
      ∀ other, other ≠ pid → W.Alive other →
        ∀ opened', (W.processes other).stage ≠ .writing file opened')
    (hremoved : W'.wrongful = []) (hintact : W'.damaged = []) : Inv win32 W' := by
  have hliving : ∀ other, other ≠ pid → W'.Alive other → W.Alive other := by
    intro other hne halive
    rw [Alive, hshares.others other hne] at halive
    exact halive
  refine ⟨hdisk.mono hshares.started, fun other halive ↦ ?_, ?_, hremoved, hintact⟩
  · by_cases hne : other = pid
    · exact hne ▸ hself (hne ▸ halive)
    · rw [hshares.others other hne]
      exact (h.processes other (hliving other hne halive)).shares hshares hne
        (hliving other hne halive) (hmine other hne (hliving other hne halive))
  · intro first second file opened opened' hfirst hsecond hwrites hwrites'
    by_cases hne : first = pid <;> by_cases hne' : second = pid
    · exact hne.trans hne'.symm
    · rw [hshares.others second hne'] at hwrites'
      exact absurd hwrites'
        (hdraft (hne ▸ hfirst) file opened (hne ▸ hwrites) second hne' (hliving second hne' hsecond) opened')
    · rw [hshares.others first hne] at hwrites
      exact absurd hwrites
        (hdraft (hne' ▸ hsecond) file opened' (hne' ▸ hwrites') first hne (hliving first hne hfirst) opened)
    · rw [hshares.others first hne] at hwrites
      rw [hshares.others second hne'] at hwrites'
      exact h.drafts first second file opened opened' (hliving first hne hfirst)
        (hliving second hne' hsecond) hwrites hwrites'

/-- **The process itself** keeps what is known of it, apart from its stage. -/
theorem ProcessOk.own {pid : ℕ} {m : LockProcess} (h : ProcessOk win32 W pid m) {mine : ℕ → Prop}
    (hshares : Shares pid mine W W') {stage : LockStage}
    (hstage : StageOk W' pid { m with stage := stage }) (hearly : stage.Early → m.acquired = false)
    (hsocket : stage.OfSocket → win32 = false)
    (hclear : win32 = false → stage = .unlinking ∨ stage = .holding ∨ m.endpointOwned = true →
      W'.disk.Owns pid → ∀ other, other ≠ pid → ¬W'.Answers other m.socketPath) :
    ProcessOk win32 W' pid { m with stage := stage } where
  started := h.started
  below s hs := (h.below s hs).mono hshares.keeps.next
  known owner howner := hshares.started owner (h.known owner howner)
  doomed s hs := hshares.keeps.doomed s (h.below s hs) (h.doomed s hs)
  stage := hstage
  early := hearly
  owned := h.owned
  socket := hsocket
  clear := hclear

/-- The endpoints after a step are those before, or fewer. -/
def Fewer (endpoints endpoints' : JsString → Option ℕ) : Prop :=
  ∀ path other, endpoints' path = some other → endpoints path = some other

/-- **The shared state changes, and the stage of the process.** -/
theorem Inv.actTo (h : Inv win32 W) {pid : ℕ} (halive : W.Alive pid) (mine : ℕ → Prop)
    {disk : LockDisk} {endpoints : JsString → Option ℕ} {wrongful damaged : List ℕ}
    (hkeeps : W.disk.Keeps pid W.Alive mine disk)
    (hmine : ∀ other, other ≠ pid → W.Alive other → ∀ file opened,
      (W.processes other).stage = .writing file opened → ¬mine file)
    (hdisk : disk.Ok fun other ↦ (W.processes other).started = true)
    (hendpoints : Fewer W.endpoints endpoints) (hremoved : wrongful = []) (hintact : damaged = [])
    {stage : LockStage}
    (hstage : StageOk (goTo ⟨disk, endpoints, W.processes, wrongful, damaged⟩ pid stage) pid
      { W.processes pid with stage := stage })
    (hearly : stage.Early → (W.processes pid).stage.Early ∨ (W.processes pid).acquired = false)
    (hsocket : stage.OfSocket → win32 = false)
    (hclear : win32 = false → stage = .unlinking ∨ stage = .holding ∨
      (W.processes pid).endpointOwned = true → disk.Owns pid → ∀ other, other ≠ pid →
        ¬Answers ⟨disk, endpoints, W.processes, wrongful, damaged⟩ other (W.processes pid).socketPath)
    (hdraft : ∀ file opened, stage = .writing file opened → file = W.disk.next) :
    Inv win32 (goTo ⟨disk, endpoints, W.processes, wrongful, damaged⟩ pid stage) := by
  have hok := h.processes pid halive
  have hshares : Shares pid mine W
      (goTo ⟨disk, endpoints, W.processes, wrongful, damaged⟩ pid stage) :=
    shares_goOn hkeeps hendpoints rfl id id
  have hself := processes_goOn_self (W := ⟨disk, endpoints, W.processes, wrongful, damaged⟩) pid
    { W.processes pid with stage := stage }
  refine h.act hshares hmine hdisk (fun _ ↦ ?_) (fun _ file opened hwrites other _ hother opened' ↦ ?_)
    hremoved hintact
  · rw [goTo, hself]
    refine hok.own hshares hstage (fun hstage ↦ (hearly hstage).elim hok.early id) hsocket ?_
    rintro hunix hcase howns other hne ⟨hendpoint, hlives, hlistens⟩
    refine hclear hunix hcase howns other hne ⟨hendpoint, ?_, ?_⟩
    · rw [Alive, ← hshares.others other hne]
      exact hlives
    · show (W.processes other).listening = true
      rw [← hshares.others other hne]
      exact hlistens
  · rw [goTo, hself] at hwrites
    intro hwrites'
    have hbelow := (h.processes other hother).stage
    rw [StageOk, hwrites'] at hbelow
    exact absurd (hdraft file opened hwrites) hbelow.1.ne

/-- **The process goes on**, and nothing else changes. -/
theorem Inv.goTo (h : Inv win32 W) {pid : ℕ} (halive : W.Alive pid) {stage : LockStage}
    (hstage : StageOk (W.goTo pid stage) pid { W.processes pid with stage := stage })
    (hearly : stage.Early → (W.processes pid).stage.Early ∨ (W.processes pid).acquired = false)
    (hsocket : stage.OfSocket → win32 = false)
    (hclear : win32 = false → stage = .unlinking ∨ stage = .holding →
      ∀ other, other ≠ pid → ¬W.Answers other (W.processes pid).socketPath)
    (hwriting : ∀ file opened, stage ≠ .writing file opened) : Inv win32 (W.goTo pid stage) := by
  refine h.actTo halive (fun _ ↦ False) .refl (fun _ _ _ _ _ _ ↦ id) h.disk (fun _ _ ↦ id)
    h.removed h.intact hstage hearly hsocket (fun hunix hcase howns ↦ ?_)
    fun file opened heq ↦ absurd heq (hwriting file opened)
  rcases hcase with hcase | hcase | howned
  · exact hclear hunix (Or.inl hcase)
  · exact hclear hunix (Or.inr hcase)
  · exact (h.processes pid halive).clear hunix (Or.inr (Or.inr howned)) howns

/-- The call is over, or goes on with `release`. -/
theorem Inv.stop (h : Inv win32 W) {pid : ℕ} (halive : W.Alive pid) {stage : LockStage}
    (hcase : stage = .idle ∨ stage = .releasing) : Inv win32 (W.goTo pid stage) := by
  rcases hcase with rfl | rfl
  · exact h.goTo halive trivial False.elim False.elim (fun _ hno ↦ hno.elim nofun nofun) nofun
  · exact h.goTo halive trivial False.elim False.elim (fun _ hno ↦ hno.elim nofun nofun) nofun

/-- `acquire` goes on before it has the lock. -/
theorem Inv.early (h : Inv win32 W) {pid : ℕ} (halive : W.Alive pid) {stage : LockStage}
    (hstage : StageOk (W.goTo pid stage) pid { W.processes pid with stage := stage })
    (hearly : (W.processes pid).stage.Early ∨ (W.processes pid).acquired = false)
    (hsocket : ¬stage.OfSocket) (hunheld : stage ≠ .holding)
    (hwriting : ∀ file opened, stage ≠ .writing file opened) : Inv win32 (W.goTo pid stage) := by
  refine h.goTo halive hstage (fun _ ↦ hearly) (fun hno ↦ absurd hno hsocket) (fun _ hcase ↦ ?_)
    hwriting
  rcases hcase with rfl | rfl
  · exact absurd trivial hsocket
  · exact absurd rfl hunheld

/-- `acquire` changes the disk before it has the lock. -/
theorem Inv.actEarly (h : Inv win32 W) {pid : ℕ} (halive : W.Alive pid)
    (hearly : (W.processes pid).stage.Early) (mine : ℕ → Prop) {disk : LockDisk} {wrongful : List ℕ}
    (hkeeps : W.disk.Keeps pid W.Alive mine disk)
    (hmine : ∀ other, other ≠ pid → W.Alive other → ∀ file opened,
      (W.processes other).stage = .writing file opened → ¬mine file)
    (hdisk : disk.Ok fun other ↦ (W.processes other).started = true) (hremoved : wrongful = [])
    {stage : LockStage}
    (hstage : StageOk (Contenders.goTo ⟨disk, W.endpoints, W.processes, wrongful, W.damaged⟩ pid stage) pid
      { W.processes pid with stage := stage })
    (hsocket : ¬stage.OfSocket) (hunheld : stage ≠ .holding)
    (hdraft : ∀ file opened, stage = .writing file opened → file = W.disk.next) :
    Inv win32 (Contenders.goTo ⟨disk, W.endpoints, W.processes, wrongful, W.damaged⟩ pid stage) := by
  have hok := h.processes pid halive
  refine h.actTo halive mine hkeeps hmine hdisk (fun _ _ ↦ id) hremoved h.intact hstage
    (fun _ ↦ Or.inl hearly) (fun hno ↦ absurd hno hsocket) (fun _ hcase ↦ ?_) hdraft
  rcases hcase with rfl | rfl | howned
  · exact absurd trivial hsocket
  · exact absurd rfl hunheld
  · exact absurd ((hok.owned howned).symm.trans (hok.early hearly)) (by decide)

/-- `mkdir`. -/
theorem Inv.create (h : Inv win32 W) {pid : ℕ} (halive : W.Alive pid) {attempt : ℕ}
    (hstage : (W.processes pid).stage = .creating attempt) : Inv win32 (W.perform win32 pid) := by
  have hearly : (W.processes pid).stage.Early := by
    rw [hstage]
    trivial
  simp only [perform, hstage]
  rcases hlock : W.disk.lock with _ | d
  · exact h.actEarly halive hearly (fun _ ↦ False) (LockDisk.keeps_mkdir hlock)
      (fun _ _ _ _ _ _ ↦ id) LockDisk.ok_mkdir h.removed trivial id nofun nofun
  · exact h.early halive trivial (Or.inl hearly) id nofun nofun

/-- `open`. -/
theorem Inv.openFile (h : Inv win32 W) {pid : ℕ} (halive : W.Alive pid) {attempt : ℕ}
    (hstage : (W.processes pid).stage = .opening attempt) : Inv win32 (W.perform win32 pid) := by
  have hearly : (W.processes pid).stage.Early := by
    rw [hstage]
    trivial
  simp only [perform, hstage]
  rcases hlock : W.disk.lock with _ | d
  · exact h.stop halive (Or.inl rfl)
  dsimp only
  split_ifs with hfile
  · exact h.early halive trivial (Or.inl hearly) id nofun nofun
  · have hnone := Option.not_isSome_iff_eq_none.mp hfile
    refine h.actEarly halive hearly (fun _ ↦ False) (LockDisk.keeps_openFile hlock hnone)
      (fun _ _ _ _ _ _ ↦ id) (h.disk.openFile hlock) h.removed
      ⟨Nat.lt_succ_self _, Or.inl ⟨_, rfl, rfl, rfl⟩⟩ id nofun fun file opened heq ↦ ?_
    exact (LockStage.writing.inj heq).1.symm

/-- **`writeFile`**, within the grace period. -/
theorem Inv.writeFile (h : Inv win32 W) {pid : ℕ} (halive : W.Alive pid) {file opened : ℕ}
    (hstage : (W.processes pid).stage = .writing file opened)
    (hintime : W.disk.now < opened + graceMs) : Inv win32 (W.perform win32 pid) := by
  have hearly : (W.processes pid).stage.Early := by
    rw [hstage]
    trivial
  have hok := (h.processes pid halive).stage
  rw [StageOk, hstage] at hok
  have hdraft := hok.2.resolve_right (not_le.mpr hintime)
  simp only [perform, hstage]
  refine h.actEarly halive hearly (· = file) (LockDisk.keeps_writeFile hdraft) ?_
    (h.disk.writeFile hdraft (h.processes pid halive).started) h.removed ?_ id nofun nofun
  · rintro other hne hother file' opened' hwrites rfl
    exact hne (h.drafts other pid file' opened' opened hother halive hwrites hstage)
  · obtain ⟨d, -, -, -, hlock'⟩ := LockDisk.lock_writeFile hdraft pid
    exact ⟨_, hlock', rfl⟩

/-- `sync` and `close`: the lock is acquired. -/
theorem Inv.sync (h : Inv win32 W) {pid : ℕ} (halive : W.Alive pid)
    (hstage : (W.processes pid).stage = .syncing) : Inv win32 (W.perform win32 pid) := by
  have hok := h.processes pid halive
  have howns := hok.stage
  rw [StageOk, hstage] at howns
  have hearly : (W.processes pid).stage.Early := by
    rw [hstage]
    trivial
  have hunowned : (W.processes pid).endpointOwned ≠ true := fun howned ↦
    absurd ((hok.owned howned).symm.trans (hok.early hearly)) (by decide)
  simp only [perform, hstage]
  have hshares : Shares pid (fun _ ↦ False) W (W.goOn pid { W.processes pid with
      acquired := true, stage := if win32 then .holding else .preparing }) :=
    shares_goOn .refl (fun _ _ ↦ id) rfl id id
  have hself := processes_goOn_self (W := W) pid { W.processes pid with
    acquired := true, stage := if win32 then .holding else .preparing }
  refine h.act hshares (fun _ _ _ _ _ _ ↦ id) h.disk (fun _ ↦ ?_) (fun _ file opened hwrites ↦ ?_)
    h.removed h.intact
  · rw [hself]
    refine ⟨hok.started, hok.below, fun owner howner ↦ hshares.started owner (hok.known owner howner),
      hok.doomed, ?_, ?_, fun _ ↦ rfl, ?_, fun hunix hcase ↦ ?_⟩
    · rw [StageOk]
      rcases win32
      · exact ⟨howns, rfl⟩
      · exact ⟨howns, rfl⟩
    · rcases win32
      · exact False.elim
      · exact False.elim
    · rcases win32
      · exact fun _ ↦ rfl
      · exact False.elim
    · subst hunix
      exact hcase.elim nofun fun hcase ↦ hcase.elim nofun fun howned ↦ absurd howned hunowned
  · rw [hself] at hwrites
    rcases win32
    · exact absurd hwrites nofun
    · exact absurd hwrites nofun

theorem alive_goTo {pid other : ℕ} {stage : LockStage} :
    (W.goTo pid stage).Alive other ↔ W.Alive other := by
  by_cases hne : other = pid
  · rw [Alive, hne, goTo, processes_goOn_self]
    rfl
  · rw [Alive, goTo, processes_goOn_of_ne hne]
    rfl

theorem goTo_self {pid : ℕ} {stage : LockStage} (h : (W.processes pid).stage = stage) :
    W.goTo pid stage = W := by
  have hsame : { W.processes pid with stage := stage } = W.processes pid := by
    rw [← h]
  rw [goTo, goOn, hsame, Function.update_eq_self]

/-! ### The endpoint -/

theorem probe_eq_false {path : JsString} :
    W.probe path = false ↔ ∀ other, ¬W.Answers other path := by
  rw [probe]
  rcases hendpoint : W.endpoints path with _ | first
  · refine ⟨fun _ other hanswers ↦ ?_, fun _ ↦ rfl⟩
    exact absurd (hanswers.1.symm.trans hendpoint) (Option.some_ne_none other)
  · rw [Option.any_some, decide_eq_false_iff_not]
    refine ⟨fun hfirst other hanswers ↦ hfirst ?_, fun hnone ↦ hnone first⟩
    obtain rfl := Option.some.inj (hanswers.1.symm.trans hendpoint)
    exact hanswers

/-- Where nobody else answers, the endpoint is removed without damage. -/
theorem damaged_removeEndpoint {pid : ℕ}
    (h : ∀ other, other ≠ pid → ¬W.Answers other (W.processes pid).socketPath) :
    (W.removeEndpoint pid).damaged = W.damaged := by
  rw [removeEndpoint]
  exact if_pos fun other _ hne ↦ h other hne

theorem fewer_update (endpoints : JsString → Option ℕ) (path : JsString) :
    Fewer endpoints (Function.update endpoints path none) := by
  intro path' other h
  by_cases hpath : path' = path
  · rw [hpath, Function.update_self] at h
    exact absurd h (Option.some_ne_none other).symm
  · rwa [Function.update_of_ne hpath] at h

/-- `#prepareEndpoint`. -/
theorem Inv.prepare (h : Inv win32 W) {pid : ℕ} (halive : W.Alive pid)
    (hstage : (W.processes pid).stage = .preparing ∨ (W.processes pid).stage = .probing ∨
      (W.processes pid).stage = .unlinking) : Inv win32 (W.perform win32 pid) := by
  have hok := h.processes pid halive
  have howns : W.disk.Owns pid ∧ (W.processes pid).acquired = true := by
    have howns := hok.stage
    rw [StageOk] at howns
    rcases hstage with hstage | hstage | hstage <;> simpa only [hstage] using howns
  have hunix : win32 = false := hok.socket (by rcases hstage with hstage | hstage | hstage <;>
    rw [hstage] <;> trivial)
  have hheld : ∀ {stage : LockStage}, stage = .probing ∨ stage = .unlinking ∨ stage = .holding →
      (stage ≠ .probing → ∀ other, other ≠ pid → ¬W.Answers other (W.processes pid).socketPath) →
      Inv win32 (W.goTo pid stage) := by
    intro stage hcase hclear
    refine h.goTo halive ?_ ?_ (fun _ ↦ hunix) (fun _ hno ↦ hclear ?_) ?_
    · rcases hcase with rfl | rfl | rfl <;> exact howns
    · rcases hcase with rfl | rfl | rfl <;> exact False.elim
    · rcases hno with rfl | rfl <;> exact nofun
    · rcases hcase with rfl | rfl | rfl <;> exact nofun
  rcases hstage with hstage | hstage | hstage <;> simp only [perform, hstage]
  · rcases hendpoint : W.endpoints (W.processes pid).socketPath with _ | other
    · refine hheld (Or.inr (Or.inr rfl)) fun _ other _ hanswers ↦ ?_
      exact absurd (hanswers.1.symm.trans hendpoint) (Option.some_ne_none other)
    · exact hheld (Or.inl rfl) fun hno ↦ absurd rfl hno
  · rcases hprobe : W.probe (W.processes pid).socketPath
    · exact hheld (Or.inr (Or.inl rfl)) fun _ other _ ↦ probe_eq_false.mp hprobe other
    · exact h.stop halive (Or.inr rfl)
  · have hclear := hok.clear hunix (Or.inl hstage) howns.1
    rcases hendpoint : W.endpoints (W.processes pid).socketPath with _ | other
    · exact h.stop halive (Or.inr rfl)
    · refine h.actTo halive (fun _ ↦ False) .refl (fun _ _ _ _ _ _ ↦ id) h.disk (fewer_update _ _)
        h.removed ((damaged_removeEndpoint hclear).trans h.intact) howns False.elim (fun _ ↦ hunix)
        (fun _ _ _ third _ hanswers ↦ ?_) nofun
      exact absurd (hanswers.1.symm.trans (Function.update_self _ _ _)) (Option.some_ne_none third)

/-! ### Reading and removing -/

/-- `#readExistingOwner` and the probes. -/
theorem Inv.judge (h : Inv win32 W) {pid : ℕ} (halive : W.Alive pid) {attempt : ℕ}
    {existing : Option ℕ} (hstage : (W.processes pid).stage = .judging attempt existing) :
    Inv win32 (W.perform win32 pid) := by
  have hok := h.processes pid halive
  have hseen := hok.stage
  rw [StageOk, hstage] at hseen
  have hearly : (W.processes pid).stage.Early := by
    rw [hstage]
    trivial
  simp only [perform, hstage]
  split_ifs with hlives
  · exact h.stop halive (Or.inl rfl)
  · refine h.early halive ⟨hseen, fun owner howner hlive ↦ hlives ?_⟩ (Or.inl hearly) id nofun nofun
    rw [howner, Option.any_some, decide_eq_true (alive_goTo.mp hlive), Bool.or_true]

/-- `lstat` of the directory. -/
theorem Inv.check (h : Inv win32 W) {pid : ℕ} (halive : W.Alive pid) {attempt : ℕ}
    {existing : Option ℕ} (hstage : (W.processes pid).stage = .checking attempt existing) :
    Inv win32 (W.perform win32 pid) := by
  have hok := h.processes pid halive
  have hseen := hok.stage
  rw [StageOk, hstage] at hseen
  obtain ⟨rfl, hdead⟩ := hseen
  have hearly : (W.processes pid).stage.Early := by
    rw [hstage]
    trivial
  simp only [perform, hstage]
  rcases hlock : W.disk.lock with _ | d
  · exact h.stop halive (Or.inl rfl)
  dsimp only
  split_ifs with hfresh
  · exact h.stop halive (Or.inl rfl)
  · refine h.early halive ⟨fun owner howner hlive ↦ hdead owner howner (alive_goTo.mp hlive),
      fun s hs howner d' hd' _ _ ↦ ?_⟩ (Or.inl hearly) id nofun nofun
    · obtain rfl := Option.some.inj (hlock.symm.trans hd')
      refine Or.inr (not_not.mp fun hstale ↦ hfresh ⟨?_, hstale⟩)
      have hseen : (W.processes pid).seen = some s := hs
      rw [hseen, Option.bind_some, howner]
      rfl

/-- What `#readExistingOwner` finds is known. -/
theorem Inv.read (h : Inv win32 W) {pid : ℕ} (halive : W.Alive pid) {stage : LockStage}
    (hstage : StageOk (W.goOn pid { W.processes pid with seen := W.disk.lock, stage := stage }) pid
      { W.processes pid with seen := W.disk.lock, stage := stage })
    (hearly : stage.Early → (W.processes pid).stage.Early) (hsocket : stage.OfSocket → win32 = false)
    (hunheld : stage ≠ .unlinking ∧ stage ≠ .holding)
    (hwriting : ∀ file opened, stage ≠ .writing file opened) :
    Inv win32 (W.goOn pid { W.processes pid with seen := W.disk.lock, stage := stage }) := by
  have hok := h.processes pid halive
  have hself := processes_goOn_self (W := W) pid
    { W.processes pid with seen := W.disk.lock, stage := stage }
  have hshares : Shares pid (fun _ ↦ False) W
      (W.goOn pid { W.processes pid with seen := W.disk.lock, stage := stage }) :=
    shares_goOn .refl (fun _ _ ↦ id) rfl id id
  refine h.act hshares (fun _ _ _ _ _ _ ↦ id) h.disk (fun _ ↦ ?_) (fun _ file opened hwrites ↦ ?_)
    h.removed h.intact
  swap
  · rw [hself] at hwrites
    exact absurd hwrites (hwriting file opened)
  rw [hself]
  refine ⟨hok.started, h.disk.below, fun owner howner ↦ ?_, fun s hs hsome d hd _ hnone ↦ ?_, hstage,
    fun hno ↦ hok.early (hearly hno), hok.owned, hsocket, fun hunix hcase howns other hne hanswers ↦ ?_⟩
  · obtain ⟨d, hd, hdowner⟩ := Option.bind_eq_some_iff.mp howner
    exact hshares.started owner (h.disk.known d hd owner hdowner)
  · obtain rfl := Option.some.inj (hs.symm.trans hd)
    rw [hnone] at hsome
    exact absurd hsome Bool.false_ne_true
  · have howned : (W.processes pid).endpointOwned = true := by
      rcases hcase with hcase | hcase | howned
      · exact absurd hcase hunheld.1
      · exact absurd hcase hunheld.2
      · exact howned
    rcases hshares.answers other _ hanswers with hbefore | ⟨hself, -⟩
    · exact hok.clear hunix (Or.inr (Or.inr howned)) howns other hne hbefore
    · exact hne hself

/-- Nothing is held any more. -/
theorem Inv.give (h : Inv win32 W) {pid : ℕ} (halive : W.Alive pid) : Inv win32 (W.give pid) := by
  have hok := h.processes pid halive
  have hshares : Shares pid (fun _ ↦ False) W (W.give pid) :=
    shares_goOn .refl (fun _ _ ↦ id) rfl id id
  have hself := processes_goOn_self (W := W) pid
    { W.processes pid with stage := .idle, acquired := false, endpointOwned := false }
  refine h.act hshares (fun _ _ _ _ _ _ ↦ id) h.disk (fun _ ↦ ?_) (fun _ file opened hwrites ↦ ?_)
    h.removed h.intact
  · rw [Contenders.give, hself]
    exact ⟨hok.started, hok.below, fun owner howner ↦ hshares.started owner (hok.known owner howner),
      hok.doomed, trivial, fun _ ↦ rfl, fun hno ↦ absurd hno Bool.false_ne_true, False.elim,
      fun _ hno ↦ hno.elim nofun fun hno ↦ hno.elim nofun nofun⟩
  · rw [Contenders.give, hself] at hwrites
    exact absurd hwrites nofun

/-- The record that a removal meets may be removed. -/
theorem Inv.mayUnlink (h : Inv win32 W) {pid : ℕ} (halive : W.Alive pid) {attempt : Option ℕ}
    (hstage : (W.processes pid).stage = .removing attempt) (hseen : W.AsSeen (W.processes pid))
    {d : LockDirectory} {f : OwnerFile} (hlock : W.disk.lock = some d) (hfile : d.file = some f) :
    (∀ owner, f.owner = some owner → owner = pid ∨ ¬W.Alive owner) ∧
      (f.owner = none → W.disk.Stale d) := by
  obtain ⟨s, hs, hinode, hsame⟩ := hseen d hlock
  have hsfile : s.file = some f := (hsame (by rw [hfile]; rfl)).symm.trans hfile
  have hsowner : (W.processes pid).seen.bind LockDirectory.owner = f.owner := by
    rw [show (W.processes pid).seen = some s from hs, Option.bind_some, LockDirectory.owner, hsfile,
      Option.bind_some]
  have hok := (h.processes pid halive).stage
  rw [StageOk, hstage] at hok
  rcases attempt with _ | attempt
  · -- `release` read its own record.
    have hown : f.owner = some pid := hsowner.symm.trans hok
    refine ⟨fun owner howner ↦ Or.inl (Option.some.inj (howner.symm.trans hown)), fun hnone ↦ ?_⟩
    exact absurd (hown.symm.trans hnone) (Option.some_ne_none pid)
  · refine ⟨fun owner howner ↦ Or.inr (hok.1 owner (hsowner.trans howner)), fun hnone ↦ ?_⟩
    have hsnone : s.owner = none := by rw [LockDirectory.owner, hsfile, Option.bind_some, hnone]
    refine (hok.2 s hs hsnone d hlock hinode (hfile.trans hsfile.symm)).resolve_left fun hdoomed ↦ ?_
    exact absurd (hfile.symm.trans (h.disk.doomed d hlock hdoomed)) (Option.some_ne_none f)

/-- What is known at a removal. -/
def RemovalOk (W : Contenders) (pid : ℕ) (m : LockProcess) : Option ℕ → Prop
  | some _ => (∀ owner, m.seen.bind LockDirectory.owner = some owner → ¬W.Alive owner) ∧
      ∀ s, m.seen = some s → s.owner = none → W.disk.Aged s
  | none => m.seen.bind LockDirectory.owner = some pid

/-- **`rm` takes what was read**, and goes on. -/
theorem Inv.actRemoving (h : Inv win32 W) {pid : ℕ} (halive : W.Alive pid) {attempt : Option ℕ}
    (hstage : (W.processes pid).stage = .removing attempt ∨
      (W.processes pid).stage = .removingDirectory attempt) {disk : LockDisk} {wrongful : List ℕ}
    (hkeeps : W.disk.Keeps pid W.Alive (fun _ ↦ False) disk)
    (hdisk : disk.Ok fun other ↦ (W.processes other).started = true) (hremoved : wrongful = [])
    (hunowned : ¬disk.Owns pid ∨ disk = W.disk) {stage : LockStage}
    (hnext : stage = .removing attempt ∨ stage = .removingDirectory attempt) :
    Inv win32 (Contenders.goTo ⟨disk, W.endpoints, W.processes, wrongful, W.damaged⟩ pid stage) := by
  have hok := h.processes pid halive
  have hremoval : RemovalOk W pid (W.processes pid) attempt := by
    have hok := hok.stage
    rw [StageOk] at hok
    rcases hstage with hstage | hstage <;> rcases attempt with _ | attempt <;>
      simp only [hstage] at hok <;> exact hok
  have hearly : stage.Early → (W.processes pid).stage.Early := by
    rcases hnext with rfl | rfl <;> rcases hstage with hstage | hstage <;> rw [hstage] <;>
      rcases attempt with _ | attempt <;> exact id
  refine h.actTo halive (fun _ ↦ False) hkeeps (fun _ _ _ _ _ _ ↦ id) hdisk (fun _ _ ↦ id) hremoved
    h.intact ?_ (fun hno ↦ Or.inl (hearly hno)) ?_ ?_ ?_
  · have hgoal : RemovalOk (Contenders.goTo ⟨disk, W.endpoints, W.processes, wrongful, W.damaged⟩ pid
        stage) pid (W.processes pid) attempt := by
      rcases attempt with _ | attempt
      · exact hremoval
      · refine ⟨fun owner howner hlive ↦ hremoval.1 owner howner (alive_goTo.mp hlive), fun s hs howner ↦ ?_⟩
        exact hkeeps.aged s (hok.below s hs) howner (hremoval.2 s hs howner)
    rcases hnext with rfl | rfl <;> rcases attempt with _ | attempt <;> exact hgoal
  · rcases hnext with rfl | rfl <;> exact False.elim
  · intro hunix hcase howns other hne hanswers
    rcases hcase with rfl | rfl | howned
    · rcases hnext with hno | hno <;> exact absurd hno nofun
    · rcases hnext with hno | hno <;> exact absurd hno nofun
    · rcases hunowned with hunowned | rfl
      · exact hunowned howns
      · exact hok.clear hunix (Or.inr (Or.inr howned)) howns other hne hanswers
  · rcases hnext with rfl | rfl <;> exact nofun

/-- `rm` removes the file. -/
theorem Inv.removeFile (h : Inv win32 W) {pid : ℕ} (halive : W.Alive pid) {attempt : Option ℕ}
    (hstage : (W.processes pid).stage = .removing attempt) (hseen : W.AsSeen (W.processes pid)) :
    Inv win32 (W.perform win32 pid) := by
  have hmay : ∀ d f, W.disk.lock = some d → d.file = some f → _ :=
    fun d f hlock hfile ↦ h.mayUnlink halive hstage hseen hlock hfile
  have hright : ∀ d ∈ W.disk.lock, d.file.isSome → W.MayUnlink pid d := by
    intro d hlock hsome
    obtain ⟨f, hfile⟩ := Option.isSome_iff_exists.mp hsome
    obtain ⟨howned, hempty⟩ := hmay d f hlock hfile
    have howner : d.owner = f.owner := by rw [LockDirectory.owner, hfile, Option.bind_some]
    rw [MayUnlink, howner]
    rcases hcase : f.owner with _ | owner
    · exact hempty hcase
    · exact howned owner hcase
  simp only [perform, hstage]
  exact h.actRemoving halive (Or.inl hstage) (LockDisk.keeps_unlink hmay) h.disk.unlink
    ((if_pos hright).trans h.removed) (Or.inl (LockDisk.not_owns_unlink pid)) (Or.inr rfl)

/-- `rm` is done, and `acquire` tries again or `release` is over. -/
theorem Inv.done (h : Inv win32 W) {pid : ℕ} (halive : W.Alive pid) {attempt : Option ℕ}
    (hstage : (W.processes pid).stage = .removingDirectory attempt) :
    Inv win32 (W.removed pid attempt) := by
  rcases attempt with _ | attempt
  · exact h.give halive
  · have hearly : (W.processes pid).stage.Early := by
      rw [hstage]
      trivial
    rw [Contenders.removed]
    split_ifs
    · exact h.early halive trivial (Or.inl hearly) id nofun nofun
    · exact h.stop halive (Or.inl rfl)

/-- `rm` removes the directory. -/
theorem Inv.removeDirectory (h : Inv win32 W) {pid : ℕ} (halive : W.Alive pid) {attempt : Option ℕ}
    (hstage : (W.processes pid).stage = .removingDirectory attempt)
    (hseen : W.AsSeen (W.processes pid)) : Inv win32 (W.perform win32 pid) := by
  simp only [perform, hstage]
  rcases hlock : W.disk.lock with _ | d
  · exact h.done halive hstage
  dsimp only
  split_ifs with hfile
  · exact h.actRemoving halive (Or.inr hstage) .refl h.disk h.removed (Or.inr rfl) (Or.inl rfl)
  have hnone := Option.not_isSome_iff_eq_none.mp hfile
  obtain ⟨s, hs, hinode, -⟩ := hseen d hlock
  have hok := h.processes pid halive
  have hmay : W.MayRemove d := by
    rcases hsfile : s.file with _ | f
    · -- There was no file when it was read, which `release` does not take for its own.
      have hsowner : s.owner = none := by rw [LockDirectory.owner, hsfile, Option.bind_none]
      have hstage' := hok.stage
      rw [StageOk, hstage] at hstage'
      rcases attempt with _ | attempt
      · have hseen' : (W.processes pid).seen.bind LockDirectory.owner = some pid := hstage'
        rw [show (W.processes pid).seen = some s from hs, Option.bind_some, hsowner] at hseen'
        exact absurd hseen' (Option.some_ne_none pid).symm
      · exact hstage'.2 s hs hsowner d hlock hinode (hnone.trans hsfile.symm)
    · exact Or.inl (hok.doomed s hs (by rw [hsfile]; rfl) d hlock hinode hnone)
  have hright : ∀ d' ∈ W.disk.lock, W.MayRemove d' := by
    intro d' hd'
    obtain rfl := Option.some.inj (hlock.symm.trans hd')
    exact hmay
  have hinv := h.actRemoving halive (Or.inr hstage)
    (LockDisk.keeps_rmdir fun d' hd' ↦ Option.some.inj (hlock.symm.trans hd') ▸ hnone)
    LockDisk.ok_rmdir (show (W.removeDirectory pid).wrongful = [] from
      (if_pos hright).trans h.removed) (Or.inl (LockDisk.not_owns_rmdir pid)) (Or.inr rfl)
  have hsame := goTo_self (W := W.removeDirectory pid) hstage
  exact (hsame ▸ hinv : Inv win32 (W.removeDirectory pid)).done halive hstage

/-! ### Release -/

theorem Inv.startRelease (h : Inv win32 W) {pid : ℕ} (halive : W.Alive pid)
    (hstage : (W.processes pid).stage = .releasing) : Inv win32 (W.perform win32 pid) := by
  have hok := h.processes pid halive
  simp only [perform, hstage]
  split_ifs with hown howned
  · obtain ⟨d, hlock, howner⟩ := Option.bind_eq_some_iff.mp hown
    obtain ⟨hunix, howned⟩ := (Bool.and_eq_true _ _).mp howned
    refine h.read halive ⟨⟨d, hlock, howner⟩, hown, howned⟩ False.elim (fun _ ↦ ?_) ⟨nofun, nofun⟩ nofun
    exact Bool.not_eq_true' _ ▸ hunix
  · exact h.read halive hown False.elim False.elim ⟨nofun, nofun⟩ nofun
  · exact h.give halive

theorem Inv.releaseEndpoint (h : Inv win32 W) {pid : ℕ} (halive : W.Alive pid)
    (hstage : (W.processes pid).stage = .releasingEndpoint) : Inv win32 (W.perform win32 pid) := by
  have hok := h.processes pid halive
  have hstage' := hok.stage
  rw [StageOk, hstage] at hstage'
  obtain ⟨howns, hseen, howned⟩ := hstage'
  have hunix : win32 = false := hok.socket (by rw [hstage]; trivial)
  have hclear := hok.clear hunix (Or.inr (Or.inr howned)) howns
  simp only [perform, hstage]
  refine h.actTo halive (fun _ ↦ False) .refl (fun _ _ _ _ _ _ ↦ id) h.disk (fewer_update _ _)
    h.removed ((damaged_removeEndpoint hclear).trans h.intact) hseen False.elim False.elim
    (fun _ _ _ third _ hanswers ↦ ?_) nofun
  exact absurd (hanswers.1.symm.trans (Function.update_self _ _ _)) (Option.some_ne_none third)

/-! ### All steps -/

/-- **The next call of a process** keeps the invariant. -/
theorem Inv.perform (h : Inv win32 W) {pid : ℕ} (halive : W.Alive pid)
    (horderly : W.Orderly (.next pid .succeeds)) : Inv win32 (W.perform win32 pid) := by
  have hnext := horderly halive
  rcases hstage : (W.processes pid).stage with _ | _ | attempt | attempt | ⟨file, opened⟩ | _ | _ | _ |
    _ | attempt | ⟨attempt, existing⟩ | ⟨attempt, existing⟩ | attempt | attempt | _ | _ <;>
    simp only [hstage] at hnext
  · simp only [Contenders.perform, hstage]
    exact h
  · simp only [Contenders.perform, hstage]
    exact h
  · exact h.create halive hstage
  · exact h.openFile halive hstage
  · exact h.writeFile halive hstage hnext
  · exact h.sync halive hstage
  · exact h.prepare halive (Or.inl hstage)
  · exact h.prepare halive (Or.inr (Or.inl hstage))
  · exact h.prepare halive (Or.inr (Or.inr hstage))
  · simp only [Contenders.perform, hstage]
    exact h.read halive rfl (fun _ ↦ by rw [hstage]; trivial) False.elim ⟨nofun, nofun⟩ nofun
  · exact h.judge halive hstage
  · exact h.check halive hstage
  · exact h.removeFile halive hstage hnext
  · exact h.removeDirectory halive hstage hnext
  · exact h.startRelease halive hstage
  · exact h.releaseEndpoint halive hstage

theorem Inv.throws (h : Inv win32 W) {pid : ℕ} (halive : W.Alive pid) : Inv win32 (W.throws pid) := by
  rw [Contenders.throws]
  split
  · exact h
  · exact h.stop halive (Or.inr rfl)
  · exact h.stop halive (Or.inr rfl)
  · exact h.stop halive (Or.inr rfl)
  · exact h.stop halive (Or.inl rfl)

theorem Inv.die (h : Inv win32 W) (pid : ℕ) : Inv win32 (W.die pid) := by
  have hshares : Shares pid (fun _ ↦ False) W (W.die pid) :=
    shares_goOn .refl (fun _ _ ↦ id) rfl (fun hno ↦ absurd hno Bool.false_ne_true) id
  have hdead : ¬(W.die pid).Alive pid := by
    rw [Alive, Contenders.die, processes_goOn_self]
    exact Bool.false_ne_true
  exact h.act hshares (fun _ _ _ _ _ _ ↦ id) h.disk (fun hno ↦ absurd hno hdead)
    (fun hno ↦ absurd hno hdead) h.removed h.intact

/-- A process starts. -/
theorem Inv.start (h : Inv win32 W) {pid : ℕ} (hnew : (W.processes pid).started ≠ true)
    (socketPath : JsString) : Inv win32
      (W.goOn pid { socketPath := socketPath, started := true, alive := true }) := by
  have hself := processes_goOn_self (W := W) pid
    { socketPath := socketPath, started := true, alive := true }
  have hother : ∀ other, other ≠ pid → (W.goOn pid
      { socketPath := socketPath, started := true, alive := true }).processes other =
        W.processes other := fun other hne ↦ processes_goOn_of_ne hne _
  have hshares : Shares pid (fun _ ↦ False) W
      (W.goOn pid { socketPath := socketPath, started := true, alive := true }) := by
    refine ⟨.refl, hother, fun other hstarted ↦ ?_, fun other hstarted hdead hlives ↦ ?_,
      fun other path hanswers ↦ Or.inl ?_⟩
    · by_cases hne : other = pid
      · rw [hne, hself]
      · rw [hother other hne]
        exact hstarted
    · have hne : other ≠ pid := fun heq ↦ hnew (heq ▸ hstarted)
      rw [Alive, hother other hne] at hlives
      exact hdead hlives
    · obtain ⟨hendpoint, hlives, hlistens⟩ := hanswers
      by_cases hne : other = pid
      · rw [hne, hself] at hlistens
        exact absurd hlistens Bool.false_ne_true
      · rw [Alive, hother other hne] at hlives
        rw [hother other hne] at hlistens
        exact ⟨hendpoint, hlives, hlistens⟩
  refine h.act hshares (fun _ _ _ _ _ _ ↦ id) h.disk (fun _ ↦ ?_) (fun _ file opened hwrites ↦ ?_)
    h.removed h.intact
  · rw [hself]
    exact ⟨rfl, nofun, nofun, nofun, trivial, False.elim, nofun, False.elim,
      fun _ hno ↦ hno.elim nofun fun hno ↦ hno.elim nofun nofun⟩
  · rw [hself] at hwrites
    exact absurd hwrites nofun

/-- What a process that holds the lock does with its endpoint. -/
theorem Inv.listen (h : Inv win32 W) {pid : ℕ} (halive : W.Alive pid)
    (hstage : (W.processes pid).stage = .holding) : Inv win32
      ({ W with endpoints := Function.update W.endpoints (W.processes pid).socketPath (some pid) }.goOn
        pid { W.processes pid with listening := true }) := by
  have hok := h.processes pid halive
  have howns := hok.stage
  rw [StageOk, hstage] at howns
  have hmine : Function.update W.endpoints (W.processes pid).socketPath (some pid)
      (W.processes pid).socketPath = some pid := by
    rw [Function.update_self]
  have hself := processes_goOn_self (W := { W with
    endpoints := Function.update W.endpoints (W.processes pid).socketPath (some pid) }) pid
    { W.processes pid with listening := true }
  have hother : ∀ other, other ≠ pid → ({ W with
      endpoints := Function.update W.endpoints (W.processes pid).socketPath (some pid) }.goOn pid
      { W.processes pid with listening := true }).processes other = W.processes other :=
    fun other hne ↦ processes_goOn_of_ne hne _
  have hshares : Shares pid (fun _ ↦ False) W ({ W with
      endpoints := Function.update W.endpoints (W.processes pid).socketPath (some pid) }.goOn pid
      { W.processes pid with listening := true }) := by
    refine ⟨.refl, hother, fun other hstarted ↦ ?_, fun other _ hdead hlives ↦ ?_,
      fun other path hanswers ↦ ?_⟩
    · by_cases hne : other = pid
      · rw [hne, hself]
        exact hok.started
      · rw [hother other hne]
        exact hstarted
    · have hne : other ≠ pid := fun heq ↦ hdead (heq ▸ halive)
      rw [Alive, hother other hne] at hlives
      exact hdead hlives
    · by_cases hne : other = pid
      · exact Or.inr ⟨hne, howns.1⟩
      · obtain ⟨hendpoint, hlives, hlistens⟩ := hanswers
        have hpath : path ≠ (W.processes pid).socketPath := by
          rintro rfl
          exact hne (Option.some.inj (hendpoint.symm.trans hmine))
        rw [Alive, hother other hne] at hlives
        rw [hother other hne] at hlistens
        exact Or.inl ⟨(Function.update_of_ne hpath _ _).symm.trans hendpoint, hlives, hlistens⟩
  refine h.act hshares (fun _ _ _ _ _ _ ↦ id) h.disk (fun _ ↦ ?_) (fun _ file opened hwrites ↦ ?_)
    h.removed h.intact
  · rw [hself]
    refine ⟨hok.started, hok.below, fun owner howner ↦ hshares.started owner (hok.known owner howner),
      hok.doomed, ?_, hok.early, hok.owned, hok.socket, fun _ _ _ other hne hanswers ↦ ?_⟩
    · rw [StageOk]
      simp only [hstage]
      exact howns
    · exact hne (Option.some.inj (hanswers.1.symm.trans hmine))
  · rw [hself, hstage] at hwrites
    exact absurd hwrites nofun

theorem StageOk.same {pid : ℕ} {m m' : LockProcess} (h : StageOk W pid m) (hdisk : W'.disk = W.disk)
    (hdead : ∀ owner, m.seen.bind LockDirectory.owner = some owner → ¬W.Alive owner → ¬W'.Alive owner)
    (hsame : m'.stage = m.stage ∧ m'.seen = m.seen ∧ m'.acquired = m.acquired)
    (hkept : m.endpointOwned = true → m'.endpointOwned = true) : StageOk W' pid m' := by
  obtain ⟨hstage, hseen, hacquired⟩ := hsame
  rw [StageOk] at h ⊢
  rw [hstage, hseen, hacquired, hdisk]
  rcases hcase : m.stage with _ | _ | _ | _ | ⟨file, opened⟩ | _ | _ | _ | _ | _ | ⟨_, existing⟩ |
    ⟨_, existing⟩ | (_ | _) | (_ | _) | _ | _ <;> simp only [hcase] at h ⊢
  all_goals first
    | exact h
    | skip
  · exact ⟨h.1, fun owner howner ↦ hdead owner (h.1.symm.trans howner) (h.2 owner howner)⟩
  · exact ⟨fun owner howner ↦ hdead owner howner (h.1 owner howner), h.2⟩
  · exact ⟨fun owner howner ↦ hdead owner howner (h.1 owner howner), h.2⟩
  · exact ⟨h.1, h.2.1, hkept h.2.2⟩

/-- A process changes what has no part in the lock. -/
theorem Inv.settle (h : Inv win32 W) {pid : ℕ} {endpoints : JsString → Option ℕ} {m : LockProcess}
    (hendpoints : Fewer W.endpoints endpoints) (hstarted : m.started = (W.processes pid).started)
    (halive : m.alive = true → W.Alive pid)
    (hlistening : m.listening = true → (W.processes pid).listening = true)
    (hsame : m.stage = (W.processes pid).stage ∧ m.seen = (W.processes pid).seen ∧
      m.acquired = (W.processes pid).acquired ∧ m.socketPath = (W.processes pid).socketPath)
    (howned : m.endpointOwned = true → (W.processes pid).endpointOwned = true ∨
      (W.processes pid).stage = .holding)
    (hkept : (W.processes pid).endpointOwned = true → m.endpointOwned = true) :
    Inv win32 ({ W with endpoints := endpoints }.goOn pid m) := by
  obtain ⟨hstage, hseen, hacquired, hpath⟩ := hsame
  have hself := processes_goOn_self (W := { W with endpoints := endpoints }) pid m
  have hshares : Shares pid (fun _ ↦ False) W ({ W with endpoints := endpoints }.goOn pid m) :=
    shares_goOn .refl hendpoints hstarted halive hlistening
  have hliving : ({ W with endpoints := endpoints }.goOn pid m).Alive pid → W.Alive pid := by
    intro hlives
    rw [Alive, hself] at hlives
    exact halive hlives
  refine h.act hshares (fun _ _ _ _ _ _ ↦ id) h.disk (fun hlives ↦ ?_)
    (fun hlives file opened hwrites other hne hother opened' hwrites' ↦ ?_) h.removed h.intact
  · have hok := h.processes pid (hliving hlives)
    rw [hself]
    refine ⟨hstarted.trans hok.started, hseen ▸ hok.below, fun owner howner ↦ ?_, hseen ▸ hok.doomed, ?_,
      hstage ▸ hacquired ▸ hok.early, ?_, hstage ▸ hok.socket, ?_⟩
    · exact hshares.started owner (hok.known owner (hseen ▸ howner))
    · refine hok.stage.same rfl (fun owner howner ↦ ?_) ⟨hstage, hseen, hacquired⟩ hkept
      exact hshares.dead owner (hok.known owner howner)
    · rw [hacquired]
      intro hm
      rcases howned hm with howned | hholding
      · exact hok.owned howned
      · have hheld := hok.stage
        rw [StageOk, hholding] at hheld
        exact hheld.2
    · intro hunix hcase howns other hne hanswers
      rw [hpath] at hanswers
      have hbefore := (hshares.answers other _ hanswers).resolve_right fun hno ↦ hne hno.1
      refine hok.clear hunix ?_ howns other hne hbefore
      rcases hcase with hcase | hcase | hm
      · exact Or.inl (hstage ▸ hcase)
      · exact Or.inr (Or.inl (hstage ▸ hcase))
      · exact Or.inr ((howned hm).symm)
  · rw [hself, hstage] at hwrites
    exact hne (h.drafts other pid file opened' opened hother (hliving hlives) hwrites' hwrites)

/-- Time passes. -/
theorem Inv.elapse (h : Inv win32 W) (ms : ℕ) :
    Inv win32 { W with disk := { W.disk with now := W.disk.now + ms } } := by
  refine ⟨⟨h.disk.below, fun d hd ↦ (h.disk.past d hd).trans (Nat.le_add_right _ ms), h.disk.doomed,
    h.disk.known⟩, fun other halive ↦ ?_, h.drafts, h.removed, h.intact⟩
  -- It is no step of the process, and may be taken for one of any other.
  have hshares : Shares (other + 1) (fun _ ↦ False) W
      { W with disk := { W.disk with now := W.disk.now + ms } } :=
    ⟨LockDisk.keeps_elapse ms, fun _ _ ↦ rfl, fun _ hstarted ↦ hstarted, fun _ _ hdead ↦ hdead,
      fun _ _ hanswers ↦ Or.inl hanswers⟩
  exact (h.processes other halive).shares hshares (Nat.ne_of_lt (Nat.lt_succ_self other)) halive
    fun _ _ _ ↦ id

theorem Inv.step (h : Inv win32 W) (a : LockAction) (ha : W.Orderly a) : Inv win32 (W.step win32 a) := by
  rcases a with ms | ⟨pid, socketPath⟩ | pid | pid | ⟨pid, outcome⟩ | pid | pid | pid <;>
    simp only [Contenders.step]
  · exact h.elapse ms
  · split_ifs with hstarted
    · exact h
    · exact h.start hstarted socketPath
  · split_ifs with hready
    · refine h.early hready.1 trivial (Or.inr ?_) id nofun nofun
      exact Bool.not_eq_true _ ▸ hready.2.2
    · exact h
  · split_ifs with hready
    · exact h.stop hready.1 (Or.inr rfl)
    · exact h
  · split_ifs with halive
    · rcases outcome
      · exact h.perform halive ha
      · exact h.throws halive
      · exact h.die pid
    · exact h
  · split_ifs with hready
    · exact h.listen hready.1 hready.2.1
    · exact h
  · split_ifs with hready
    · exact h.settle (fun _ _ ↦ id) rfl id id ⟨rfl, rfl, rfl, rfl⟩ (fun _ ↦ Or.inr hready.2) fun _ ↦ rfl
    · exact h
  · refine h.settle ?_ rfl id (fun hno ↦ absurd hno Bool.false_ne_true) ⟨rfl, rfl, rfl, rfl⟩ Or.inl id
    split_ifs
    · exact fewer_update _ _
    · exact fun _ _ ↦ id

end Contenders

end LiteHarness.Operations
