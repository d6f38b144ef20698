import TradingHours.Proofs.Effect
/-!
Traced work by its answer. Work answers `r` if it does so whatever trail it starts with; answers of
steps put together are the answer of the whole. It asks the questions that it adds to every trail.

Traced work is quiet if none of its entries is about a change.
-/
namespace TradingHours

def Trail.Quiet (trail : Trail) : Prop := ∀ e ∈ trail.entries, e.event ≠ Journal.changeEvent

namespace Traced

variable {α β : Type} {x : Traced α} {f : α → Traced β} {h : Failure → Traced α}
  {r : Except Failure α} {g : α → Except Failure β} {h' : Failure → Except Failure α}

def answer (x : Traced α) : Except Failure α := (exec x {}).1

theorem exec_of_answer (hx : x.answer = r) : exec x {} = (r, leaves x {}) := exec_of_fst hx

/-- Whatever trail it starts with, work answers `r`. -/
def Answers (x : Traced α) (r : Except Failure α) : Prop := ∀ trail, (exec x trail).1 = r

@[simp] theorem ofExcept_self (r : Except Failure α) : (ofExcept r : Except Failure α) = r := by
  cases r <;> rfl

namespace Answers

theorem answer_eq (hx : Answers x r) : x.answer = r := hx {}

theorem pure (a : α) : Answers (pure a) (.ok a) := fun _ => rfl

theorem ofExcept (r : Except Failure α) : Answers (ofExcept r) r := by
  intro trail
  rw [exec_ofExcept]

theorem note (e : Journal.Entry) : Answers (note e) (.ok ()) := fun _ => rfl

theorem bind (hx : Answers x r) (hf : ∀ a, Answers (f a) (g a)) : Answers (x >>= f) (r >>= g) := by
  intro trail
  have hr := hx trail
  rw [exec_bind]
  cases hres : exec x trail with
  | mk result trail' =>
    rw [hres] at hr
    subst hr
    cases result with
    | ok a => exact hf a trail'
    | error e => rfl

theorem tryCatch (hx : Answers x r) (hh : ∀ e, Answers (h e) (h' e)) :
    Answers (tryCatch x h) (tryCatch r h') := by
  intro trail
  have hr := hx trail
  rw [exec_tryCatch]
  cases hres : exec x trail with
  | mk result trail' =>
    rw [hres] at hr
    subst hr
    cases result with
    | ok a => rfl
    | error e => exact hh e trail'

theorem ask (q : Question) (r : Except Failure Bool) : Answers (ask q r) r :=
  bind (r := .ok ()) (g := fun _ => r) (fun _ => rfl) fun _ => ofExcept r

theorem outcome (hx : Answers x r) : Answers (outcome x) (.ok r) := by
  have h := tryCatch (bind hx fun a => pure (Except.ok (ε := Failure) a)) fun e => pure (.error e)
  cases r <;> exact h

theorem mapM {step : α → Traced β} (hs : ∀ a, Answers (step a) (g a)) (l : List α) :
    Answers (l.mapM step) (l.mapM g) := by
  induction l with
  | nil => exact pure []
  | cons a l ih =>
    rw [List.mapM_cons, List.mapM_cons]
    exact bind (hs a) fun b => bind ih fun bs => pure (b :: bs)

end Answers

def Asks (x : Traced α) (asked : List Question) : Prop :=
  ∀ trail, (exec x trail).2.questions.toList = trail.questions.toList ++ asked

namespace Asks

variable {asked more : List Question} {a : α} {e : Failure}

theorem pure (a : α) : Asks (pure a) [] := fun _ => (List.append_nil _).symm

theorem ofExcept (r : Except Failure α) : Asks (ofExcept r) [] := by
  intro trail
  rw [exec_ofExcept, List.append_nil]

theorem note (e : Journal.Entry) : Asks (note e) [] := fun _ => (List.append_nil _).symm

theorem bind (hx : Asks x asked) (ha : Answers x (.ok a)) (hf : Asks (f a) more) :
    Asks (x >>= f) (asked ++ more) := by
  intro trail
  have hres : exec x trail = (.ok a, (exec x trail).2) := Prod.ext (ha trail) rfl
  rw [exec_bind_ok hres, hf, hx, List.append_assoc]

theorem bind_error (hx : Asks x asked) (he : Answers x (.error e)) : Asks (x >>= f) asked := by
  intro trail
  have hres : exec x trail = (.error e, (exec x trail).2) := Prod.ext (he trail) rfl
  rw [exec_bind_error hres, hx]

theorem bind_unasked (hx : Asks x asked) (hf : ∀ a, Asks (f a) []) : Asks (x >>= f) asked := by
  intro trail
  have hquestions := hx trail
  rw [exec_bind]
  cases hres : exec x trail with
  | mk result trail' =>
    rw [hres] at hquestions
    cases result with
    | ok a => exact (hf a trail').trans (by rw [List.append_nil, hquestions])
    | error e => exact hquestions

theorem ask (q : Question) (r : Except Failure Bool) : Asks (ask q r) [q] := by
  refine bind_unasked (fun trail => ?_) fun _ => ofExcept r
  rw [exec_modify, Array.toList_push]

theorem tryCatch_unasked (hx : Asks x asked) (hh : ∀ e, Asks (h e) []) :
    Asks (tryCatch x h) asked := by
  intro trail
  have hquestions := hx trail
  rw [exec_tryCatch]
  cases hres : exec x trail with
  | mk result trail' =>
    rw [hres] at hquestions
    cases result with
    | ok a => exact hquestions
    | error e => exact (hh e trail').trans (by rw [List.append_nil, hquestions])

theorem outcome (hx : Asks x asked) : Asks (outcome x) asked :=
  (hx.bind_unasked fun _ => pure _).tryCatch_unasked fun _ => pure _

end Asks

theorem quiet_note {logger event : String} {level : Journal.Level} {fields : List (String × Value)}
    {failure : Option Failure} (he : event ≠ Journal.changeEvent) :
    Keeps Trail.Quiet (note ⟨logger, level, event, fields, failure⟩) := by
  refine .modify fun trail hquiet other hother => ?_
  rcases Array.mem_push.1 hother with hother | rfl
  · exact hquiet other hother
  · exact he

theorem quiet_ask (q : Question) (r : Except Failure Bool) : Keeps Trail.Quiet (ask q r) :=
  Keeps.bind (.modify fun _ hquiet => hquiet) fun _ => .ofExcept r

theorem quiet_outcome (hx : Keeps Trail.Quiet x) : Keeps Trail.Quiet (outcome x) :=
  (hx.bind fun _ => .pure _).tryCatch fun _ => .pure _

end Traced

end TradingHours
