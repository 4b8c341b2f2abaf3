import Mathlib.Data.List.Nodup
import Mathlib.Data.Nat.Basic
import Mathlib.Logic.Relation
import Mathlib.Order.Lattice
import Mathlib.Tactic.SplitIfs

/-!
# Jobs that queue on several keys

A job enters the queue with a number of keys. On each of them it waits for the job that is the tail
of the key at that time, and becomes the tail itself. It may leave the queue once the jobs it waits
for have settled, and a settled job stops being a tail.

The tails are all that is remembered of a key. What carries the order through is that a job that
has left the queue had its predecessors settled, and these had left the queue before.
-/

namespace LiteHarness.Foundation

/-- Where a job is. -/
inductive JobPhase where
  | waiting | running | settled

/-- A job with its place in the queue. -/
structure Ticket (ι κ : Type*) where
  id : ι
  keys : List κ
  predecessors : List ι

/-- The jobs in the order in which they entered, their phases, and the tails of the keys. -/
structure KeyedQueue (ι κ : Type*) where
  tickets : List (Ticket ι κ)
  phase : ι → JobPhase
  tail : κ → Option ι

namespace KeyedQueue

variable {ι κ : Type*}

/-- One move of the queue. -/
inductive Step (q q' : KeyedQueue ι κ) : Prop
  /-- Jobs that are running go on or settle, and jobs whose predecessors have settled leave the
  queue. -/
  | work (htickets : q'.tickets = q.tickets) (htail : q'.tail = q.tail)
      (hphase : ∀ t ∈ q.tickets, q'.phase t.id = q.phase t.id ∨
        q.phase t.id = .running ∧ q'.phase t.id ≠ .waiting ∨
        q.phase t.id = .waiting ∧ ∀ p ∈ t.predecessors, q.phase p = .settled)
  /-- A job enters. -/
  | enqueue {i : ι} {keys : List κ} (hfresh : ∀ t ∈ q.tickets, t.id ≠ i)
      (htickets : q'.tickets = q.tickets ++ [⟨i, keys, keys.filterMap q.tail⟩])
      (htail : ∀ k, q'.tail k = some i ∧ k ∈ keys ∨ q'.tail k = q.tail k ∧ k ∉ keys)
      (hphase : ∀ t ∈ q.tickets, q'.phase t.id = q.phase t.id) (hwaiting : q'.phase i = .waiting)
  /-- A settled job stops being a tail. -/
  | drain {t : Ticket ι κ} (ht : t ∈ q.tickets) (hsettled : q.phase t.id = .settled)
      (htickets : q'.tickets = q.tickets)
      (htail : ∀ k, q'.tail k = q.tail k ∨ q'.tail k = none ∧ q.tail k = some t.id)
      (hphase : ∀ t ∈ q.tickets, q'.phase t.id = q.phase t.id)

/-- Nothing has entered yet. -/
structure IsEmpty (q : KeyedQueue ι κ) : Prop where
  tickets : q.tickets = []
  tail : ∀ k, q.tail k = none

/-- The job `a` entered before the job `b`. -/
def Before (q : KeyedQueue ι κ) (a b : Ticket ι κ) : Prop := List.Sublist [a, b] q.tickets

/-- The jobs queue on a common key. -/
def Shares (a b : Ticket ι κ) : Prop := ∃ k, k ∈ a.keys ∧ k ∈ b.keys

/-- The queue remembers enough. The tail of a key is the last job that queued on it; where a key has
no tail, all jobs on it have settled; and a job waits on each key for the last job before it, unless
all of them had settled. -/
structure Ordered (q : KeyedQueue ι κ) : Prop where
  nodup : (q.tickets.map Ticket.id).Nodup
  last : ∀ k i, q.tail k = some i → ∃ t ∈ q.tickets, t.id = i ∧ k ∈ t.keys ∧
    ∀ b ∈ q.tickets, k ∈ b.keys → b = t ∨ q.Before b t
  free : ∀ k, q.tail k = none → ∀ t ∈ q.tickets, k ∈ t.keys → q.phase t.id = .settled
  chain : ∀ b t, q.Before b t → ∀ k, k ∈ b.keys → k ∈ t.keys → q.phase b.id = .settled ∨
    ∃ p, p.id ∈ t.predecessors ∧ k ∈ p.keys ∧ q.Before p t ∧ (b = p ∨ q.Before b p)
  waited : ∀ t ∈ q.tickets, q.phase t.id ≠ .waiting → ∀ p ∈ t.predecessors, q.phase p = .settled
  predecessors : ∀ t ∈ q.tickets, ∀ p ∈ t.predecessors, ∃ b, b.id = p ∧ q.Before b t ∧ Shares b t

variable {q q' : KeyedQueue ι κ}

theorem IsEmpty.ordered (h : q.IsEmpty) : q.Ordered where
  nodup := by rw [h.tickets]; exact List.nodup_nil
  last k i hi := absurd ((h.tail k).symm.trans hi) (by simp)
  free k _ t ht := absurd ht (by rw [h.tickets]; exact List.not_mem_nil)
  chain b t hbt := by
    rw [Before, h.tickets] at hbt
    exact absurd hbt.length_le (by simp)
  waited t ht := absurd ht (by rw [h.tickets]; exact List.not_mem_nil)
  predecessors t ht := absurd ht (by rw [h.tickets]; exact List.not_mem_nil)

/-! ## The order of entry -/

theorem Before.mem_left {a b : Ticket ι κ} (h : q.Before a b) : a ∈ q.tickets :=
  h.subset List.mem_cons_self

theorem Before.mem_right {a b : Ticket ι κ} (h : q.Before a b) : b ∈ q.tickets :=
  h.subset (List.mem_cons_of_mem _ List.mem_cons_self)

/-- A job is before the one that enters last. -/
theorem before_append {l : List (Ticket ι κ)} {a b t : Ticket ι κ}
    (h : List.Sublist [a, b] (l ++ [t])) : List.Sublist [a, b] l ∨ b = t ∧ a ∈ l := by
  obtain ⟨l₁, l₂, heq, h₁, h₂⟩ := List.sublist_append_iff.mp h
  match l₁, l₂, heq with
  | [], _, rfl =>
    have hlen := h₂.length_le
    simp at hlen
  | [_], [_], heq =>
    obtain ⟨rfl, hb⟩ := List.cons.inj heq
    obtain ⟨rfl, -⟩ := List.cons.inj hb
    exact Or.inr ⟨List.mem_singleton.mp (List.singleton_sublist.mp h₂),
      List.singleton_sublist.mp h₁⟩
  | [_, _], [], heq =>
    rw [List.append_nil] at heq
    exact Or.inl (heq ▸ h₁)

theorem sublist_append_singleton {l : List (Ticket ι κ)} {a t : Ticket ι κ} (ha : a ∈ l) :
    List.Sublist [a, t] (l ++ [t]) :=
  (List.singleton_sublist.mpr ha).append (List.Sublist.refl [t])

/-- Of two jobs one entered first. -/
theorem before_or {a b : Ticket ι κ} (ha : a ∈ q.tickets) (hb : b ∈ q.tickets) (hne : a ≠ b) :
    q.Before a b ∨ q.Before b a := by
  obtain ⟨l₁, l₂, heq⟩ := List.append_of_mem ha
  rw [Before, Before, heq]
  rw [heq] at hb
  rcases List.mem_append.mp hb with hb | hb
  · refine Or.inr ((List.singleton_sublist.mpr hb).append ?_)
    exact (List.nil_sublist l₂).cons_cons a
  · have hb' := (List.mem_cons.mp hb).resolve_left fun h ↦ hne h.symm
    exact Or.inl (((List.singleton_sublist.mpr hb').cons_cons a).trans
      (List.sublist_append_right l₁ _))

/-- Jobs that entered earlier have a smaller position. -/
theorem Before.position_lt [DecidableEq ι] (h : (q.tickets.map Ticket.id).Nodup)
    {a b : Ticket ι κ} (hab : q.Before a b) :
    (q.tickets.map Ticket.id).idxOf a.id < (q.tickets.map Ticket.id).idxOf b.id := by
  obtain ⟨l₁, l₂, heq, ha, hb⟩ := List.cons_sublist_iff.mp hab
  rw [heq, List.map_append] at h ⊢
  have ha' : a.id ∈ l₁.map Ticket.id := List.mem_map_of_mem ha
  have hb' : b.id ∈ l₂.map Ticket.id := List.mem_map_of_mem (List.singleton_sublist.mp hb)
  have hnot : b.id ∉ l₁.map Ticket.id := fun hmem ↦
    (List.disjoint_of_nodup_append h) hmem hb'
  rw [List.idxOf_append_of_mem ha', List.idxOf_append_of_notMem hnot]
  have hlt := List.idxOf_lt_length_of_mem ha'
  omega

/-- What holds of a job once it holds of the jobs that entered before it, holds of every job. -/
theorem before_induction (h : (q.tickets.map Ticket.id).Nodup) {P : Ticket ι κ → Prop}
    (hstep : ∀ t ∈ q.tickets, (∀ b, q.Before b t → P b) → P t) : ∀ t ∈ q.tickets, P t := by
  classical
  intro t ht
  induction hn : (q.tickets.map Ticket.id).idxOf t.id using Nat.strongRecOn
    generalizing t with
  | ind n ih =>
    refine hstep t ht fun b hb ↦ ih _ ?_ b hb.mem_left rfl
    exact hn ▸ hb.position_lt h

/-! ## Moves keep the order -/

/-- Settled jobs stay settled. -/
theorem Step.settled (h : Step q q') {t : Ticket ι κ} (ht : t ∈ q.tickets)
    (hsettled : q.phase t.id = .settled) : q'.phase t.id = .settled := by
  cases h with
  | work _ _ hphase =>
    rcases hphase t ht with heq | ⟨hrunning, -⟩ | ⟨hwaiting, -⟩
    · exact heq.trans hsettled
    · exact absurd (hsettled.symm.trans hrunning) (by simp)
    · exact absurd (hsettled.symm.trans hwaiting) (by simp)
  | enqueue _ _ _ hphase => exact (hphase t ht).trans hsettled
  | drain _ _ _ _ hphase => exact (hphase t ht).trans hsettled

/-- A job that has left the queue, or leaves it now, had its predecessors settled. -/
theorem Step.waited (h : Step q q') {t : Ticket ι κ} (ht : t ∈ q.tickets)
    (hleft : q'.phase t.id ≠ .waiting) :
    q.phase t.id ≠ .waiting ∨ ∀ p ∈ t.predecessors, q.phase p = .settled := by
  cases h with
  | work _ _ hphase =>
    rcases hphase t ht with heq | ⟨hrunning, -⟩ | ⟨-, hsettled⟩
    · exact Or.inl (heq ▸ hleft)
    · exact Or.inl (hrunning ▸ by simp)
    · exact Or.inr hsettled
  | enqueue _ _ _ hphase => exact Or.inl (hphase t ht ▸ hleft)
  | drain _ _ _ _ hphase => exact Or.inl (hphase t ht ▸ hleft)

/-- The tickets of a move are the old ones, and one that enters. -/
theorem Step.mem_tickets (h : Step q q') {t : Ticket ι κ} (ht : t ∈ q.tickets) :
    t ∈ q'.tickets := by
  cases h with
  | work htickets => exact htickets ▸ ht
  | enqueue _ htickets => exact htickets ▸ List.mem_append_left _ ht
  | drain _ _ htickets => exact htickets ▸ ht

/-- **In the order of entry.** A job has left the queue only after all earlier jobs on its keys have
settled. -/
theorem Ordered.settled_of_before (h : q.Ordered) {k : κ} {b t : Ticket ι κ} (hbt : q.Before b t)
    (hb : k ∈ b.keys) (ht : k ∈ t.keys) (hleft : q.phase t.id ≠ .waiting) :
    q.phase b.id = .settled := by
  refine before_induction (P := fun t ↦ ∀ b, q.Before b t → k ∈ b.keys → k ∈ t.keys →
    q.phase t.id ≠ .waiting → q.phase b.id = .settled) h.nodup ?_ t hbt.mem_right b hbt hb ht hleft
  intro t hmem ih b hbt hb ht hleft
  rcases h.chain b t hbt k hb ht with hsettled | ⟨p, hp, hk, hpt, rfl | hbp⟩
  · exact hsettled
  · exact h.waited t hmem hleft b.id hp
  · refine ih p hpt b hbp hb hk ?_
    rw [h.waited t hmem hleft p.id hp]
    simp

/-- **A move keeps the queue ordered.** -/
theorem Ordered.step (h : q.Ordered) (hstep : Step q q') : q'.Ordered := by
  have hpredecessor : ∀ t ∈ q.tickets, ∀ p ∈ t.predecessors, q.phase p = .settled →
      q'.phase p = .settled := by
    intro t ht p hp hsettled
    obtain ⟨b, rfl, hb, -⟩ := h.predecessors t ht p hp
    exact hstep.settled hb.mem_left hsettled
  have hwaited : ∀ t ∈ q.tickets, q'.phase t.id ≠ .waiting → ∀ p ∈ t.predecessors,
      q'.phase p = .settled := by
    intro t ht hleft p hp
    refine hpredecessor t ht p hp ?_
    exact (hstep.waited ht hleft).elim (fun hleft ↦ h.waited t ht hleft p hp) fun hall ↦ hall p hp
  have hsettled := fun {t : Ticket ι κ} ↦ hstep.settled (t := t)
  cases hstep with
  | work htickets htail hphase =>
    have hbefore : ∀ a b, q'.Before a b ↔ q.Before a b := fun a b ↦ by
      rw [Before, htickets, Before]
    refine ⟨htickets ▸ h.nodup, fun k i hi ↦ ?_, fun k hk t ht hmem ↦ ?_, fun b t hbt k hb ht ↦ ?_,
      fun t ht ↦ hwaited t (htickets ▸ ht), fun t ht ↦ ?_⟩
    · simp only [hbefore, htickets]
      exact h.last k i (htail ▸ hi)
    · exact hsettled (htickets ▸ ht) (h.free k (htail ▸ hk) t (htickets ▸ ht) hmem)
    · simp only [hbefore] at hbt ⊢
      exact (h.chain b t hbt k hb ht).imp_left (hsettled hbt.mem_left)
    · simp only [hbefore]
      exact h.predecessors t (htickets ▸ ht)
  | @drain t₀ ht₀ hsettled₀ htickets htail hphase =>
    have hbefore : ∀ a b, q'.Before a b ↔ q.Before a b := fun a b ↦ by
      rw [Before, htickets, Before]
    refine ⟨htickets ▸ h.nodup, fun k i hi ↦ ?_, fun k hk t ht hmem ↦ ?_, fun b t hbt k hb ht ↦ ?_,
      fun t ht ↦ hwaited t (htickets ▸ ht), fun t ht ↦ ?_⟩
    · simp only [hbefore, htickets]
      rcases htail k with heq | ⟨hnone, -⟩
      · exact h.last k i (heq ▸ hi)
      · exact absurd (hi.symm.trans hnone) (by simp)
    · rw [htickets] at ht
      refine hsettled ht ?_
      rcases htail k with heq | ⟨-, hlast⟩
      · exact h.free k (heq ▸ hk) t ht hmem
      · -- the last job on the key has settled, and so have the ones before it
        obtain ⟨t₁, ht₁, hid, hk₁, hall⟩ := h.last k t₀.id hlast
        rcases hall t ht hmem with rfl | hbefore₁
        · exact hid ▸ hsettled₀
        · refine h.settled_of_before hbefore₁ hmem hk₁ ?_
          rw [hid, hsettled₀]
          simp
    · simp only [hbefore] at hbt ⊢
      exact (h.chain b t hbt k hb ht).imp_left (hsettled hbt.mem_left)
    · simp only [hbefore]
      exact h.predecessors t (htickets ▸ ht)
  | @enqueue i keys hfresh htickets htail hphase hwaiting =>
    have hlast : ∀ a ∈ q.tickets, q'.Before a ⟨i, keys, keys.filterMap q.tail⟩ := fun a ha ↦ by
      rw [Before, htickets]
      exact sublist_append_singleton ha
    have hold : ∀ {a b}, q.Before a b → q'.Before a b := fun hab ↦ by
      rw [Before, htickets]
      exact hab.trans (List.sublist_append_left _ _)
    have hmem : ∀ {t}, t ∈ q'.tickets → t ∈ q.tickets ∨ t = ⟨i, keys, keys.filterMap q.tail⟩ :=
      fun ht ↦ (List.mem_append.mp (htickets ▸ ht)).imp_right List.mem_singleton.mp
    refine ⟨?_, fun k j hj ↦ ?_, fun k hk t ht hkt ↦ ?_, fun b t hbt k hb ht ↦ ?_, fun t ht ↦ ?_,
      fun t ht p hp ↦ ?_⟩
    · rw [htickets, List.map_append, List.nodup_append]
      refine ⟨h.nodup, List.nodup_singleton _, fun a ha b hb ↦ ?_⟩
      obtain ⟨t, ht, rfl⟩ := List.mem_map.mp ha
      obtain rfl := List.mem_singleton.mp hb
      exact hfresh t ht
    · rcases htail k with ⟨hsome, hk⟩ | ⟨hsame, hk⟩
      · obtain rfl := Option.some.inj (hsome.symm.trans hj)
        refine ⟨_, htickets ▸ List.mem_append_right _ (List.mem_singleton_self _), rfl, hk,
          fun b hb _ ↦ ?_⟩
        exact (hmem hb).symm.imp_right (hlast b)
      · obtain ⟨t, ht, hid, hkt, hall⟩ := h.last k j (hsame ▸ hj)
        refine ⟨t, htickets ▸ List.mem_append_left _ ht, hid, hkt, fun b hb hkb ↦ ?_⟩
        rcases hmem hb with hb | rfl
        · exact (hall b hb hkb).imp_right hold
        · exact absurd hkb hk
    · rcases htail k with ⟨hsome, -⟩ | ⟨hsame, hnot⟩
      · exact absurd (hk.symm.trans hsome) (by simp)
      · rcases hmem ht with ht | rfl
        · exact hsettled ht (h.free k (hsame ▸ hk) t ht hkt)
        · exact absurd hkt hnot
    · rw [Before, htickets] at hbt
      rcases before_append hbt with hbt | ⟨rfl, hbmem⟩
      · change q.Before b t at hbt
        refine (h.chain b t hbt k hb ht).imp (hsettled hbt.mem_left) ?_
        exact fun ⟨p, hp, hk, hpt, hbp⟩ ↦ ⟨p, hp, hk, hold hpt, hbp.imp_right hold⟩
      · cases hk : q.tail k with
        | none => exact Or.inl (hsettled hbmem (h.free k hk b hbmem hb))
        | some j =>
          obtain ⟨p, hpmem, rfl, hkp, hall⟩ := h.last k j hk
          exact Or.inr ⟨p, List.mem_filterMap.mpr ⟨k, ht, hk⟩, hkp, hlast p hpmem,
            (hall b hbmem hb).imp_right hold⟩
    · rcases hmem ht with ht | rfl
      · exact hwaited t ht
      · exact fun hleft ↦ absurd hwaiting hleft
    · rcases hmem ht with ht | rfl
      · obtain ⟨b, hb, hbt, hshares⟩ := h.predecessors t ht p hp
        exact ⟨b, hb, hold hbt, hshares⟩
      · obtain ⟨k, hk, htailk⟩ := List.mem_filterMap.mp hp
        obtain ⟨b, hb, hid, hkb, -⟩ := h.last k p htailk
        exact ⟨b, hid, hlast b hb, k, hkb, hk⟩

/-! ## What the order gives -/

/-- **Exclusion.** Jobs that share a key do not run at the same time. -/
theorem Ordered.exclusive (h : q.Ordered) {a b : Ticket ι κ} (ha : a ∈ q.tickets)
    (hb : b ∈ q.tickets) (hne : a ≠ b) (hshares : Shares a b) :
    ¬(q.phase a.id = .running ∧ q.phase b.id = .running) := by
  rintro ⟨hrunning, hrunning'⟩
  obtain ⟨k, hka, hkb⟩ := hshares
  rcases before_or ha hb hne with hab | hba
  · have hsettled := h.settled_of_before hab hka hkb (by simp [hrunning'])
    exact absurd (hrunning.symm.trans hsettled) (by simp)
  · have hsettled := h.settled_of_before hba hkb hka (by simp [hrunning])
    exact absurd (hrunning'.symm.trans hsettled) (by simp)

/-- The job `i` waits for the job `p`. -/
def WaitsFor (q : KeyedQueue ι κ) (i p : ι) : Prop :=
  ∃ t ∈ q.tickets, t.id = i ∧ p ∈ t.predecessors

/-- **No deadlock.** No job waits for itself through others. -/
theorem Ordered.acyclic (h : q.Ordered) (i : ι) : ¬Relation.TransGen q.WaitsFor i i := by
  classical
  have hposition : ∀ i j, Relation.TransGen q.WaitsFor i j →
      (q.tickets.map Ticket.id).idxOf j < (q.tickets.map Ticket.id).idxOf i := by
    intro i j hij
    induction hij with
    | single hstep =>
      obtain ⟨t, ht, rfl, hp⟩ := hstep
      obtain ⟨b, rfl, hbt, -⟩ := h.predecessors t ht _ hp
      exact hbt.position_lt h.nodup
    | tail _ hstep ih =>
      obtain ⟨t, ht, rfl, hp⟩ := hstep
      obtain ⟨b, rfl, hbt, -⟩ := h.predecessors t ht _ hp
      exact (hbt.position_lt h.nodup).trans ih
  exact fun hii ↦ lt_irrefl _ (hposition i i hii)

/-- Jobs wait only for jobs they share a key with. -/
theorem Ordered.shares_of_waitsFor (h : q.Ordered) {i p : ι} (hip : q.WaitsFor i p) :
    ∃ a ∈ q.tickets, ∃ b ∈ q.tickets, a.id = i ∧ b.id = p ∧ Shares a b := by
  obtain ⟨t, ht, rfl, hp⟩ := hip
  obtain ⟨b, rfl, hbt, k, hkb, hkt⟩ := h.predecessors t ht p hp
  exact ⟨t, ht, b, hbt.mem_left, rfl, rfl, k, hkt, hkb⟩

/-! ## Infinite runs -/

section Runs

variable {run : ℕ → KeyedQueue ι κ} {n m : ℕ} {t : Ticket ι κ}

theorem ordered_of_run (hordered : (run 0).Ordered) (hrun : ∀ n, Step (run n) (run (n + 1)))
    (n : ℕ) : (run n).Ordered := by
  induction n with
  | zero => exact hordered
  | succ n ih => exact ih.step (hrun n)

theorem mem_of_le (hrun : ∀ n, Step (run n) (run (n + 1))) (hnm : n ≤ m)
    (ht : t ∈ (run n).tickets) : t ∈ (run m).tickets := by
  induction hnm with
  | refl => exact ht
  | step _ ih => exact (hrun _).mem_tickets ih

theorem settled_of_le (hrun : ∀ n, Step (run n) (run (n + 1))) (hnm : n ≤ m)
    (ht : t ∈ (run n).tickets) (hsettled : (run n).phase t.id = .settled) :
    (run m).phase t.id = .settled := by
  induction hnm with
  | refl => exact hsettled
  | @step m hnm ih => exact (hrun m).settled (mem_of_le hrun hnm ht) ih

/-- The predecessors of a job stay settled. -/
theorem predecessors_of_le (hordered : (run 0).Ordered) (hrun : ∀ n, Step (run n) (run (n + 1)))
    (hnm : n ≤ m) (ht : t ∈ (run n).tickets)
    (hsettled : ∀ p ∈ t.predecessors, (run n).phase p = .settled) :
    ∀ p ∈ t.predecessors, (run m).phase p = .settled := by
  intro p hp
  obtain ⟨b, rfl, hbt, -⟩ := (ordered_of_run hordered hrun n).predecessors t ht p hp
  exact settled_of_le hrun hnm hbt.mem_left (hsettled b.id hp)

/-- **Progress.** In an infinite run in which jobs that have left the queue settle, and jobs whose
predecessors have settled leave the queue, every job settles. -/
theorem progress (hordered : (run 0).Ordered) (hrun : ∀ n, Step (run n) (run (n + 1)))
    (hsettles : ∀ n, ∀ t ∈ (run n).tickets, (run n).phase t.id ≠ .waiting →
      ∃ m ≥ n, (run m).phase t.id = .settled)
    (hleaves : ∀ n, ∀ t ∈ (run n).tickets,
      (∀ p ∈ t.predecessors, (run n).phase p = .settled) → ∃ m ≥ n, (run m).phase t.id ≠ .waiting)
    (n : ℕ) : ∀ t ∈ (run n).tickets, ∃ m ≥ n, (run m).phase t.id = .settled := by
  have hall := ordered_of_run hordered hrun
  refine before_induction (hall n).nodup fun t ht ih ↦ ?_
  -- the predecessors are finitely many, so they have all settled at some time
  have hfinite : ∀ ps : List ι, (∀ p ∈ ps, p ∈ t.predecessors) →
      ∃ m ≥ n, ∀ p ∈ ps, (run m).phase p = .settled := by
    intro ps
    induction ps with
    | nil => exact fun _ ↦ ⟨n, le_rfl, fun p hp ↦ absurd hp List.not_mem_nil⟩
    | cons p ps ihps =>
      intro hps
      obtain ⟨m₁, hm₁, hsettled₁⟩ := ihps fun p' hp' ↦ hps p' (List.mem_cons_of_mem _ hp')
      obtain ⟨b, rfl, hbt, -⟩ := (hall n).predecessors t ht p (hps p List.mem_cons_self)
      obtain ⟨m₂, hm₂, hsettled₂⟩ := ih b hbt
      refine ⟨max m₁ m₂, hm₁.trans (le_max_left _ _), fun p' hp' ↦ ?_⟩
      rcases List.mem_cons.mp hp' with rfl | hp'
      · exact settled_of_le hrun (le_max_right _ _) (mem_of_le hrun hm₂ hbt.mem_left) hsettled₂
      · obtain ⟨b', rfl, hbt', -⟩ :=
          (hall n).predecessors t ht p' (hps p' (List.mem_cons_of_mem _ hp'))
        exact settled_of_le hrun (le_max_left _ _) (mem_of_le hrun hm₁ hbt'.mem_left)
          (hsettled₁ _ hp')
  obtain ⟨m₁, hm₁, hsettled⟩ := hfinite t.predecessors fun _ ↦ id
  obtain ⟨m₂, hm₂, hleft⟩ := hleaves m₁ t (mem_of_le hrun hm₁ ht) hsettled
  obtain ⟨m₃, hm₃, hdone⟩ := hsettles m₂ t (mem_of_le hrun (hm₁.trans hm₂) ht) hleft
  exact ⟨m₃, (hm₁.trans hm₂).trans hm₃, hdone⟩

end Runs

end KeyedQueue

end LiteHarness.Foundation
