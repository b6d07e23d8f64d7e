import DietExchange.Proofs.Engine.Accounting
import DietExchange.Proofs.Engine.Actions
import Mathlib.Data.List.Induction

namespace DietExchange.Engine

theorem actAll_append (engine : Engine) (front back : List Action) :
    engine.actAll (front ++ back) = (engine.actAll front).actAll back :=
  List.foldl_append ..

theorem allowsAll_append {engine : Engine} {front back : List Action} :
    engine.AllowsAll (front ++ back) ↔ engine.AllowsAll front ∧
    (engine.actAll front).AllowsAll back := by
  induction front generalizing engine with
  | nil => simp [AllowsAll, actAll]
  | cons action rest ih =>
    have hrest := @ih (engine.act action)
    simp only [List.cons_append, AllowsAll, hrest, and_assoc]
    rfl

/-- Whether an action of one kind is among these, and none of the other kind came since. -/
def Since (sets clears : Engine → Action → Prop) (engine : Engine) (actions : List Action) : Prop :=
  ∃ front action back, actions = front ++ action :: back ∧ sets (engine.actAll front) action ∧
    ∀ middle later rest, back = middle ++ later :: rest →
      ¬clears (engine.actAll (front ++ action :: middle)) later

section Since

variable {sets clears : Engine → Action → Prop} {engine : Engine} {actions : List Action}
  {action : Action}

theorem not_since_nil : ¬Since sets clears engine [] := by
  rintro ⟨front, action, back, hsplit, -⟩
  simp at hsplit

/-- The last action sets, or it does not clear what was set before. -/
theorem since_concat : Since sets clears engine (actions ++ [action]) ↔
    sets (engine.actAll actions) action ∨
      (Since sets clears engine actions ∧ ¬clears (engine.actAll actions) action) := by
  constructor
  · rintro ⟨front, first, back, hsplit, hsets, hspared⟩
    rcases List.eq_nil_or_concat back with rfl | ⟨before, last, rfl⟩
    · obtain ⟨rfl, hlast⟩ := List.append_inj' hsplit rfl
      obtain rfl := List.singleton_inj.mp hlast
      exact .inl hsets
    · rw [List.concat_eq_append, ← List.cons_append, ← List.append_assoc] at hsplit
      obtain ⟨rfl, hlast⟩ := List.append_inj' hsplit rfl
      obtain rfl := List.singleton_inj.mp hlast
      refine .inr ⟨⟨front, first, before, rfl, hsets, fun middle later rest hback => ?_⟩, ?_⟩
      · apply hspared middle later (rest ++ [action])
        rw [hback, List.concat_eq_append, List.append_assoc, List.cons_append]
      · exact hspared before action [] (List.concat_eq_append ..)
  · rintro (hsets | ⟨⟨front, first, back, rfl, hsets, hspared⟩, hkept⟩)
    · exact ⟨actions, action, [], rfl, hsets, fun middle later rest hback => by simp at hback⟩
    · refine ⟨front, first, back ++ [action], by simp, hsets, fun middle later rest hback => ?_⟩
      rcases List.eq_nil_or_concat rest with rfl | ⟨before, last, rfl⟩
      · obtain ⟨rfl, hlast⟩ := List.append_inj' hback rfl
        obtain rfl := List.singleton_inj.mp hlast
        exact hkept
      · rw [List.concat_eq_append, ← List.cons_append, ← List.append_assoc] at hback
        exact hspared middle later before (List.append_inj' hback rfl).1

/-- What some actions bring about and others undo is there exactly if it was brought about and not
    undone since, provided that it was not there in the beginning. -/
theorem holds_actAll_iff {P : Engine → Prop} (sets clears : Engine → Action → Prop)
    (hreachable : Reachable engine) (hopen : engine.closed = false) (hfirst : ¬P engine)
    (hstep : ∀ before action, Reachable before → before.closed = false →
      before.identity = engine.identity → before.config = engine.config → before.Allows action →
      (P (before.act action) ↔ sets before action ∨ (P before ∧ ¬clears before action)))
    (hallows : engine.AllowsAll actions) :
    P (engine.actAll actions) ↔ Since sets clears engine actions := by
  induction actions using List.reverseRecOn with
  | nil => exact iff_of_false hfirst not_since_nil
  | append_singleton actions action ih =>
    obtain ⟨hbefore, hlast, -⟩ := allowsAll_append.mp hallows
    have hcontinues := engine.continues_actAll actions
    have hone := hstep (engine.actAll actions) action (hreachable.actAll hbefore)
      (closed_actAll hopen hbefore) hcontinues.identity hcontinues.config hlast
    rw [actAll_append, since_concat, ← ih hbefore]
    exact hone

end Since

/-- Nothing is left of an engine that was closed, whatever is done later. -/
theorem table_actAll_of_closed {engine : Engine} (hopen : engine.closed = false)
    (later : List Action) : ((engine.after .close).actAll later).table = .empty := by
  have hreleased := released_close hopen
  have hclosed : (engine.after .close).closed = true := by
    simp [Engine.after, Engine.close, hopen]
  generalize engine.after .close = gone at hreleased hclosed
  have hstill : ∀ action, gone.act action = gone := by
    intro action
    cases action with
    | connect | handlePacket | handleTimeout =>
      simp [act, perform, connect, handlePacket, handleTimeoutIn, hclosed]
    | pollOutput =>
      simp [act, perform, pollOutput, hreleased.established, hreleased.datagrams]
  induction later with
  | nil => exact hreleased.table
  | cons action rest ih =>
    change ((gone.act action).actAll rest).table = _
    rw [hstill action]
    exact ih

end DietExchange.Engine
