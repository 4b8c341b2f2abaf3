import LiteHarness.Foundation.Effect

/-!
# Programs whose operations fail

A program works on a disk by single operations. Each operation succeeds, fails with an error and
leaves the disk as it is, or the whole process dies before it. An error is an exception, which the
program can handle; when the process dies, no handler and no cleanup of the program runs any more.

The rules are those of `Eff.Triple`. What a program establishes for the outcome `died` holds of the
disk another process will find.
-/

namespace LiteHarness.Foundation

universe u

/-- What becomes of an operation. -/
inductive Outcome where
  | succeeds
  | fails
  /-- The process dies before the operation takes effect. -/
  | dies
  deriving DecidableEq

/-- Why a program did not return. -/
inductive Halt (ε : Type u) where
  | died
  | threw (error : ε)

namespace Eff

variable {δ ε α β : Type u}

/-- One operation on the disk. It may be in order for it to throw, as when a file is missing. -/
def attempt (outcome : Outcome) (fault : ε) (operation : δ → Except ε (α × δ)) :
    Eff δ (Halt ε) α := fun d ↦
  match outcome with
  | .succeeds =>
    match operation d with
    | .ok (a, d') => (.ok a, d')
    | .error e => (.error (.threw e), d)
  | .fails => (.error (.threw fault), d)
  | .dies => (.error .died, d)

/-- `try { … } catch (error) { … }`. -/
def rescue (m : Eff δ (Halt ε) α) (handler : ε → Eff δ (Halt ε) α) : Eff δ (Halt ε) α :=
  tryCatch m fun
    | .died => throw .died
    | .threw e => handler e

/-- `try { … } finally { … }`. -/
def ensuring (m : Eff δ (Halt ε) α) (cleanup : Eff δ (Halt ε) PUnit) : Eff δ (Halt ε) α := do
  let a ← rescue m fun e ↦ do
    cleanup
    throw (.threw e)
  cleanup
  pure a

/-! ## Evaluation -/

@[simp] theorem run_attempt_succeeds (fault : ε) (operation : δ → Except ε (α × δ)) (d : δ) :
    (attempt .succeeds fault operation).run d =
      match operation d with
      | .ok (a, d') => (.ok a, d')
      | .error e => (.error (.threw e), d) := rfl

@[simp] theorem run_attempt_fails (fault : ε) (operation : δ → Except ε (α × δ)) (d : δ) :
    (attempt .fails fault operation).run d = (.error (.threw fault), d) := rfl

@[simp] theorem run_attempt_dies (fault : ε) (operation : δ → Except ε (α × δ)) (d : δ) :
    (attempt .dies fault operation).run d = (.error .died, d) := rfl

theorem run_rescue_of_ok {m : Eff δ (Halt ε) α} {handler : ε → Eff δ (Halt ε) α} {d d' : δ} {a : α}
    (h : m.run d = (.ok a, d')) : (rescue m handler).run d = (.ok a, d') := by
  rw [rescue, run_tryCatch, h, orElse_ok]

theorem run_rescue_of_threw {m : Eff δ (Halt ε) α} {handler : ε → Eff δ (Halt ε) α} {d d' : δ}
    {e : ε} (h : m.run d = (.error (.threw e), d')) :
    (rescue m handler).run d = (handler e).run d' := by
  rw [rescue, run_tryCatch, h, orElse_error]

/-! ## Moving along a relation -/

section Evolves

variable {R : δ → δ → Prop}

/-- The relation as a pre- and postcondition. -/
theorem Evolves.triple (htrans : ∀ d d' d'', R d d' → R d' d'' → R d d'') {m : Eff δ (Halt ε) α}
    (hm : Evolves R m) (d₀ : δ) : Triple (R d₀) m fun _ ↦ R d₀ :=
  fun d hd ↦ htrans d₀ d _ hd (hm d)

theorem Evolves.attempt (hrefl : ∀ d, R d d) {outcome : Outcome} {fault : ε}
    {operation : δ → Except ε (α × δ)} (hdone : ∀ d a d', operation d = .ok (a, d') → R d d') :
    Evolves R (Eff.attempt outcome fault operation) := by
  intro d
  cases outcome with
  | succeeds =>
    rw [run_attempt_succeeds]
    rcases hop : operation d with e | ⟨a, d'⟩
    · exact hrefl d
    · exact hdone d a d' hop
  | fails => exact hrefl d
  | dies => exact hrefl d

theorem Evolves.rescue (hrefl : ∀ d, R d d) (htrans : ∀ d d' d'', R d d' → R d' d'' → R d d'')
    {m : Eff δ (Halt ε) α} {handler : ε → Eff δ (Halt ε) α} (hm : Evolves R m)
    (hh : ∀ e, Evolves R (handler e)) : Evolves R (Eff.rescue m handler) := by
  refine Evolves.tryCatch htrans hm fun halt ↦ ?_
  cases halt with
  | died => exact Evolves.throw hrefl _
  | threw e => exact hh e

theorem Evolves.ensuring (hrefl : ∀ d, R d d) (htrans : ∀ d d' d'', R d d' → R d' d'' → R d d'')
    {m : Eff δ (Halt ε) α} {cleanup : Eff δ (Halt ε) PUnit} (hm : Evolves R m)
    (hcleanup : Evolves R cleanup) : Evolves R (Eff.ensuring m cleanup) := by
  have hrethrow : ∀ e, Evolves R (do cleanup; MonadExcept.throw (Halt.threw e) :
      Eff δ (Halt ε) α) := fun e ↦
    Evolves.bind htrans hcleanup fun _ ↦ Evolves.throw hrefl _
  refine Evolves.bind htrans (Evolves.rescue hrefl htrans hm hrethrow) fun a ↦ ?_
  exact Evolves.bind htrans hcleanup fun _ ↦ Evolves.pure hrefl a

end Evolves

/-! ## Pre- and postconditions -/

section Triple

variable {p : δ → Prop} {q : Except (Halt ε) α → δ → Prop}

/-- An operation keeps the disk, or does what it does. -/
theorem Triple.attempt {outcome : Outcome} {fault : ε} {operation : δ → Except ε (α × δ)}
    (hdone : outcome = .succeeds → ∀ d, p d → ∀ a d', operation d = .ok (a, d') → q (.ok a) d')
    (hthrew : outcome = .succeeds → ∀ d, p d → ∀ e, operation d = .error e →
      q (.error (.threw e)) d)
    (hfails : outcome = .fails → ∀ d, p d → q (.error (.threw fault)) d)
    (hdies : outcome = .dies → ∀ d, p d → q (.error .died) d) :
    Triple p (Eff.attempt outcome fault operation) q := by
  intro d hd
  cases outcome with
  | succeeds =>
    rw [run_attempt_succeeds]
    rcases hop : operation d with e | ⟨a, d'⟩
    · exact hthrew rfl d hd e hop
    · exact hdone rfl d hd a d' hop
  | fails => exact hfails rfl d hd
  | dies => exact hdies rfl d hd

theorem Triple.rescue {m : Eff δ (Halt ε) α} {handler : ε → Eff δ (Halt ε) α}
    {r : Except (Halt ε) α → δ → Prop} (hm : Triple p m r) (hok : ∀ a d, r (.ok a) d → q (.ok a) d)
    (hh : ∀ e, Triple (r (.error (.threw e))) (handler e) q)
    (hdied : ∀ d, r (.error .died) d → q (.error .died) d) : Triple p (Eff.rescue m handler) q := by
  refine Triple.tryCatch hm hok fun halt ↦ ?_
  cases halt with
  | died => exact Triple.throw hdied
  | threw e => exact hh e

/-- A cleanup that fails after the program has returned makes its error the outcome. -/
theorem Triple.ensuring {m : Eff δ (Halt ε) α} {cleanup : Eff δ (Halt ε) PUnit}
    {r : Except (Halt ε) α → δ → Prop} (hm : Triple p m r)
    (hok : ∀ a, Triple (r (.ok a)) cleanup fun c d ↦
      match c with
      | .ok _ => q (.ok a) d
      | .error halt => q (.error halt) d)
    (hthrew : ∀ e, Triple (r (.error (.threw e))) cleanup fun c d ↦
      match c with
      | .ok _ => q (.error (.threw e)) d
      | .error halt => q (.error halt) d)
    (hdied : ∀ d, r (.error .died) d → q (.error .died) d) :
    Triple p (Eff.ensuring m cleanup) q := by
  let middle : Except (Halt ε) α → δ → Prop := fun c d ↦
    match c with
    | .ok a => r (.ok a) d
    | .error halt => q (.error halt) d
  have hmiddle : Triple p (Eff.rescue m fun e ↦ cleanup >>= fun _ ↦ MonadExcept.throw (.threw e))
      middle := by
    refine Triple.rescue hm (fun a d h ↦ h) (fun e ↦ ?_) hdied
    exact Triple.bind (hthrew e) (fun _ ↦ Triple.throw fun d h ↦ h) fun halt d h ↦ h
  refine Triple.bind hmiddle (fun a ↦ ?_) fun halt d h ↦ h
  refine Triple.bind (r := fun c d ↦ match c with
    | .ok _ => q (.ok a) d
    | .error halt => q (.error halt) d) (hok a) (fun _ ↦ Triple.pure fun d h ↦ h) ?_
  exact fun halt d h ↦ h

end Triple

end Eff

end LiteHarness.Foundation
