import LiteHarness.Operations.Exclusion

/-!
# The next manager

When the holder is dead, a process that is left alone finds the directory, judges it, removes it and
makes its own. What it does next is determined at every stage, so that the stages are taken from the
last one backwards.
-/

namespace LiteHarness.Operations

open Foundation

namespace Contenders

variable {W : Contenders} {win32 : Bool} {pid : ℕ} {path : JsString}

/-! ## A process alone -/

/-- A living process is at a stage, and nobody answers at its endpoint. -/
structure Solo (W : Contenders) (pid : ℕ) (path : JsString) (stage : LockStage) : Prop where
  alive : W.Alive pid
  endpoint : (W.processes pid).socketPath = path
  stage : (W.processes pid).stage = stage
  quiet : ∀ other, ¬W.Answers other path

/-- Some number of calls later the process holds the lock. -/
def Reaches (win32 : Bool) (W : Contenders) (pid : ℕ) : Prop :=
  ∃ calls, ((W.run win32 (List.replicate calls (.next pid .succeeds))).processes pid).stage = .holding

theorem reaches_of_perform (halive : W.Alive pid) (h : Reaches win32 (W.perform win32 pid) pid) :
    Reaches win32 W pid := by
  obtain ⟨calls, hcalls⟩ := h
  refine ⟨calls + 1, ?_⟩
  have hstep : W.step win32 (.next pid .succeeds) = W.perform win32 pid := by
    simp only [step, if_pos halive]
  rw [List.replicate_succ, run, List.foldl_cons, hstep]
  exact hcalls

/-- The process goes on, and possibly changes the disk or removes endpoints. -/
theorem Solo.goOn {stage : LockStage} (h : Solo W pid path stage) {disk : LockDisk}
    {endpoints : JsString → Option ℕ} (hendpoints : Fewer W.endpoints endpoints)
    {wrongful damaged : List ℕ} {m : LockProcess} (halive : m.alive = (W.processes pid).alive)
    (hpath : m.socketPath = (W.processes pid).socketPath)
    (hlistening : m.listening = (W.processes pid).listening) :
    Solo (Contenders.goOn ⟨disk, endpoints, W.processes, wrongful, damaged⟩ pid m) pid path
      m.stage := by
  have hself := processes_goOn_self (W := ⟨disk, endpoints, W.processes, wrongful, damaged⟩) pid m
  have hlives := halive.trans h.alive
  refine ⟨?_, ?_, ?_, fun other hanswers ↦ h.quiet other ?_⟩
  · rw [Alive, hself]
    exact hlives
  · rw [hself]
    exact hpath.trans h.endpoint
  · rw [hself]
  · obtain ⟨hendpoint, hother, hlistens⟩ := hanswers
    by_cases hne : other = pid
    · rw [hne, hself] at hlistens
      exact hne ▸ ⟨hendpoints path pid (hne ▸ hendpoint), h.alive, hlistening.symm.trans hlistens⟩
    · rw [Alive, processes_goOn_of_ne hne] at hother
      rw [processes_goOn_of_ne hne] at hlistens
      exact ⟨hendpoints path other hendpoint, hother, hlistens⟩

theorem Solo.goTo {stage stage' : LockStage} (h : Solo W pid path stage) {disk : LockDisk}
    {endpoints : JsString → Option ℕ} (hendpoints : Fewer W.endpoints endpoints)
    {wrongful damaged : List ℕ} :
    Solo (Contenders.goTo ⟨disk, endpoints, W.processes, wrongful, damaged⟩ pid stage') pid path
      stage' :=
  h.goOn hendpoints rfl rfl rfl

theorem Solo.same {stage stage' : LockStage} (h : Solo W pid path stage) :
    Solo (W.goTo pid stage') pid path stage' :=
  h.goTo fun _ _ ↦ id

theorem Solo.probe {stage : LockStage} (h : Solo W pid path stage) :
    W.probe (W.processes pid).socketPath = false :=
  probe_eq_false.mpr fun other ↦ h.endpoint.symm ▸ h.quiet other

/-! ## The stages -/

theorem Solo.holding (h : Solo W pid path .holding) : Reaches win32 W pid := ⟨0, h.stage⟩

theorem Solo.unlinking (h : Solo W pid path .unlinking)
    (hendpoint : (W.endpoints path).isSome) : Reaches win32 W pid := by
  refine reaches_of_perform h.alive ?_
  obtain ⟨other, hother⟩ := Option.isSome_iff_exists.mp hendpoint
  simp only [perform, h.stage, h.endpoint, hother]
  exact (h.goTo (fewer_update _ _)).holding

theorem Solo.probing (h : Solo W pid path .probing) (hendpoint : (W.endpoints path).isSome) :
    Reaches win32 W pid := by
  refine reaches_of_perform h.alive ?_
  simp only [perform, h.stage, h.probe, if_neg Bool.false_ne_true]
  exact h.same.unlinking hendpoint

theorem Solo.preparing (h : Solo W pid path .preparing) : Reaches win32 W pid := by
  refine reaches_of_perform h.alive ?_
  simp only [perform, h.stage, h.endpoint]
  rcases hendpoint : W.endpoints path with _ | other
  · exact h.same.holding
  · exact h.same.probing (show (W.endpoints path).isSome = true by rw [hendpoint]; rfl)

theorem Solo.syncing (h : Solo W pid path .syncing) : Reaches win32 W pid := by
  refine reaches_of_perform h.alive ?_
  simp only [perform, h.stage]
  rcases win32
  · exact Solo.preparing (h.goOn (fun _ _ ↦ id) rfl rfl rfl)
  · exact Solo.holding (h.goOn (fun _ _ ↦ id) rfl rfl rfl)

theorem Solo.writing {file opened : ℕ} (h : Solo W pid path (.writing file opened)) :
    Reaches win32 W pid := by
  refine reaches_of_perform h.alive ?_
  simp only [perform, h.stage]
  exact (h.goTo fun _ _ ↦ id).syncing

theorem Solo.opening {attempt : ℕ} (h : Solo W pid path (.opening attempt)) {d : LockDirectory}
    (hlock : W.disk.lock = some d) (hfile : d.file = none) : Reaches win32 W pid := by
  refine reaches_of_perform h.alive ?_
  simp only [perform, h.stage, hlock, hfile, Option.isSome_none, if_neg Bool.false_ne_true]
  exact (h.goTo fun _ _ ↦ id).writing

theorem Solo.creating {attempt : ℕ} (h : Solo W pid path (.creating attempt))
    (hlock : W.disk.lock = none) : Reaches win32 W pid := by
  refine reaches_of_perform h.alive ?_
  simp only [perform, h.stage, hlock]
  exact (h.goTo fun _ _ ↦ id).opening rfl rfl

theorem Solo.removingDirectory {attempt : ℕ} (h : Solo W pid path (.removingDirectory (some attempt)))
    (hattempt : attempt + 1 < 4) (hfile : ∀ d, W.disk.lock = some d → d.file = none) :
    Reaches win32 W pid := by
  refine reaches_of_perform h.alive ?_
  simp only [perform, h.stage]
  rcases hlock : W.disk.lock with _ | d
  · simp only [removed, if_pos hattempt]
    exact h.same.creating hlock
  · simp only [hfile d hlock, Option.isSome_none, if_neg Bool.false_ne_true, removed, if_pos hattempt]
    exact (h.goTo fun _ _ ↦ id).creating rfl

theorem Solo.removing {attempt : ℕ} (h : Solo W pid path (.removing (some attempt)))
    (hattempt : attempt + 1 < 4) : Reaches win32 W pid := by
  refine reaches_of_perform h.alive ?_
  simp only [perform, h.stage]
  refine Solo.removingDirectory (h.goTo fun _ _ ↦ id) hattempt fun d hd ↦ ?_
  obtain ⟨d', -, rfl⟩ := Option.map_eq_some_iff.mp hd
  split_ifs with hfile
  · rfl
  · exact Option.not_isSome_iff_eq_none.mp hfile

theorem Solo.checking {attempt : ℕ} {existing : Option ℕ}
    (h : Solo W pid path (.checking attempt existing)) (hattempt : attempt + 1 < 4)
    {d : LockDirectory} (hlock : W.disk.lock = some d) (hstale : W.disk.Stale d) :
    Reaches win32 W pid := by
  refine reaches_of_perform h.alive ?_
  simp only [perform, h.stage, hlock, if_neg fun hno : existing.isNone ∧ ¬W.disk.Stale d ↦ hno.2 hstale]
  exact h.same.removing hattempt

theorem Solo.judging {attempt : ℕ} {existing : Option ℕ}
    (h : Solo W pid path (.judging attempt existing)) (hattempt : attempt + 1 < 4)
    {d : LockDirectory} (hlock : W.disk.lock = some d) (hstale : W.disk.Stale d)
    (hdead : ∀ owner ∈ existing, ¬W.Alive owner) : Reaches win32 W pid := by
  refine reaches_of_perform h.alive ?_
  have hany : (existing.any fun owner ↦ W.Alive owner) = false := by
    rcases existing with _ | owner
    · rfl
    · exact decide_eq_false (hdead owner rfl)
  simp only [perform, h.stage, h.probe, hany, Bool.or_false, if_neg Bool.false_ne_true]
  exact h.same.checking hattempt hlock hstale

theorem Solo.reading {attempt : ℕ} (h : Solo W pid path (.reading attempt))
    (hattempt : attempt + 1 < 4) {d : LockDirectory} (hlock : W.disk.lock = some d)
    (hstale : W.disk.Stale d) (hdead : ∀ owner, d.owner = some owner → ¬W.Alive owner) :
    Reaches win32 W pid := by
  refine reaches_of_perform h.alive ?_
  simp only [perform, h.stage]
  have hsolo : Solo (W.goOn pid { W.processes pid with
      seen := W.disk.lock, stage := .judging attempt (W.disk.lock.bind LockDirectory.owner) }) pid path
      (.judging attempt (W.disk.lock.bind LockDirectory.owner)) :=
    h.goOn (fun _ _ ↦ id) rfl rfl rfl
  refine hsolo.judging hattempt hlock hstale fun owner howner hlives ↦ ?_
  rw [hlock] at howner
  refine hdead owner howner ?_
  by_cases hne : owner = pid
  · exact hne ▸ h.alive
  · rw [Alive, processes_goOn_of_ne hne] at hlives
    exact hlives

/-- **A process alone acquires the lock.** -/
theorem Solo.acquires (h : Solo W pid path (.creating 0))
    (hlock : ∀ d, W.disk.lock = some d →
      W.disk.Stale d ∧ ∀ owner, d.owner = some owner → ¬W.Alive owner) :
    Reaches win32 W pid := by
  rcases hcase : W.disk.lock with _ | d
  · exact h.creating hcase
  · obtain ⟨hstale, hdead⟩ := hlock d hcase
    refine reaches_of_perform h.alive ?_
    simp only [perform, h.stage, hcase]
    exact h.same.reading (by decide) hcase hstale fun owner howner hlives ↦
      hdead owner howner (alive_goTo.mp hlives)

/-! ## Runs of the lock -/

/-- **The lock is recovered.** -/
theorem Inv.recovers (h : Inv win32 W) (hnew : (W.processes pid).started = false)
    (hdead : ∀ owner ∈ W.disk.lock.bind LockDirectory.owner, ¬W.Alive owner)
    (hquiet : W.probe path = false) :
    ∃ calls, ((W.run win32 (aloneFor pid path calls)).processes pid).stage = .holding := by
  let later : Contenders := { W with disk := { W.disk with now := W.disk.now + graceMs } }
  let m : LockProcess := { socketPath := path, started := true, alive := true }
  have hself : (later.goOn pid m).processes pid = m := processes_goOn_self pid m
  have hsolo : Solo (later.goOn pid m) pid path .idle := by
    refine ⟨?_, ?_, ?_, fun other hanswers ↦ ?_⟩
    · rw [Alive, hself]
    · rw [hself]
    · rw [hself]
    · obtain ⟨hendpoint, hlives, hlistens⟩ := hanswers
      by_cases hne : other = pid
      · rw [hne, hself] at hlistens
        exact absurd hlistens Bool.false_ne_true
      · rw [Alive, processes_goOn_of_ne hne] at hlives
        rw [processes_goOn_of_ne hne] at hlistens
        exact probe_eq_false.mp hquiet other ⟨hendpoint, hlives, hlistens⟩
  have hstart : Contenders.step win32 later (.start pid path) = later.goOn pid m := by
    simp only [Contenders.step]
    exact if_neg fun hstarted ↦ absurd (hnew.symm.trans hstarted) Bool.false_ne_true
  have hacquire : Contenders.step win32 (later.goOn pid m) (.acquire pid) =
      (later.goOn pid m).goTo pid (.creating 0) := by
    simp only [Contenders.step, hself]
    exact if_pos ⟨rfl, rfl, Bool.false_ne_true⟩
  obtain ⟨calls, hcalls⟩ : Reaches win32 ((later.goOn pid m).goTo pid (.creating 0)) pid := by
    refine hsolo.same.acquires fun d hlock ↦ ⟨?_, fun owner howner hlives ↦ ?_⟩
    · exact Nat.add_le_add_right (h.disk.past d hlock) graceMs
    · have hlive := alive_goTo.mp hlives
      by_cases hne : owner = pid
      · -- No record names a process that did not start.
        have hknown := h.disk.known d hlock owner howner
        rw [hne, hnew] at hknown
        exact absurd hknown Bool.false_ne_true
      · rw [Alive, processes_goOn_of_ne hne] at hlive
        exact hdead owner (Option.bind_eq_some_iff.mpr ⟨d, hlock, howner⟩) hlive
  refine ⟨calls, ?_⟩
  rw [aloneFor, run, List.foldl_append, List.foldl_cons, List.foldl_cons, List.foldl_cons,
    List.foldl_nil]
  rw [show Contenders.step win32 W (.elapse graceMs) = later from rfl, hstart, hacquire]
  exact hcalls

theorem Inv.owns (h : Inv win32 W) (halive : W.Alive pid)
    (hholding : (W.processes pid).stage = .holding) : W.disk.Owns pid := by
  have hok := (h.processes pid halive).stage
  rw [StageOk, hholding] at hok
  exact hok.1

/-- **The lock excludes**: in every run whose steps are orderly, whatever fails, and whenever a
process dies, one living process at most holds the lock, nothing is removed that is in use, and a
lock whose holder died is found by the next. -/
theorem lock_excludes (actions : List LockAction)
    (hactions : Throughout (step win32) Orderly {} actions) :
    (run win32 {} actions).Excludes win32 := by
  have h : Inv win32 (run win32 {} actions) :=
    Throughout.induction (fun _ a hinv ha ↦ hinv.step a ha) inv_init hactions
  refine ⟨fun pid pid' halive halive' hholding hholding' ↦ ?_, h.removed, h.intact,
    fun pid path hnew ↦ h.recovers hnew⟩
  exact owns_unique (h.owns halive hholding) (h.owns halive' hholding')

instance (m : LockProcess) : Decidable (W.AsSeen m) :=
  inferInstanceAs (Decidable (∀ d ∈ W.disk.lock, ∃ s ∈ m.seen,
    d.inode = s.inode ∧ (d.file.isSome → d.file = s.file)))

instance (a : LockAction) : Decidable (W.Orderly a) :=
  match a with
  | .next pid .succeeds =>
    match h : (W.processes pid).stage with
    | .writing _ opened => decidable_of_iff (W.Alive pid → W.disk.now < opened + graceMs) (by
        rw [Orderly, h])
    | .removing _ | .removingDirectory _ =>
      decidable_of_iff (W.Alive pid → W.AsSeen (W.processes pid)) (by rw [Orderly, h])
    | .idle | .holding | .creating _ | .opening _ | .syncing | .preparing | .probing | .unlinking
    | .reading _ | .judging _ _ | .checking _ _ | .releasing | .releasingEndpoint =>
      isTrue (by rw [Orderly, h]; exact fun _ ↦ trivial)
  | .next _ .fails => isTrue trivial
  | .next _ .dies => isTrue trivial
  | .elapse _ => isTrue trivial
  | .start _ _ => isTrue trivial
  | .acquire _ => isTrue trivial
  | .release _ => isTrue trivial
  | .listen _ => isTrue trivial
  | .secureEndpoint _ => isTrue trivial
  | .close _ => isTrue trivial

/-! ## Three processes -/

/-- A process takes a number of steps. -/
def calls (pid n : ℕ) : List LockAction := List.replicate n (.next pid .succeeds)

/-- A process starts and begins to acquire the lock. -/
def begins (pid : ℕ) : List LockAction := [.start pid (js "manager.sock"), .acquire pid]

/-- A process holds the lock and dies, and another one finds that out. -/
def orphaned : List LockAction :=
  begins 1 ++ calls 1 5 ++ [.next 1 .dies] ++ begins 2 ++ calls 2 4

theorem lock_excludes_orphaned :
    (run false {} (orphaned ++ calls 2 7)).Excludes false :=
  lock_excludes _ (by decide +kernel)

/-- A third process finds it out too, and removes the directory of the second, which holds the lock
by then. -/
theorem not_excludes_race :
    ¬(run false {} (orphaned ++ begins 3 ++ calls 3 4 ++ calls 2 7 ++ calls 3 7)).Excludes false :=
  fun h ↦ absurd (h.exclusive 2 3 (by decide +kernel) (by decide +kernel) (by decide +kernel)
    (by decide +kernel)) (by decide)

end Contenders

end LiteHarness.Operations
