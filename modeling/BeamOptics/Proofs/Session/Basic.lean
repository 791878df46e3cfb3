import BeamOptics.Proofs.Action
import BeamOptics.Session.Lattice

/-!
# Looking things up in a session

Names and numbers are looked up without a trace in the session.
-/

namespace BeamOptics

namespace Session

theorem keeps_entry {τ : Type} (table : Session → Table Nat τ) (number : Nat) : (entry table number).Keeps id := by
  apply Action.keeps_get_bind
  intro s
  cases (table s).get? number <;> rfl

theorem run_entry_of_none {τ : Type} {table : Session → Table Nat τ} {number : Nat} {s : Session}
    (h : (table s).get? number = none) : (entry table number).run s = (.error (.unbound (toString number)), s) := by
  rw [entry, Action.run_get_bind, h]
  rfl

theorem keeps_handle (name : String) : (handle name).Keeps id := by
  refine (Action.keeps_ask _).bind fun names => ?_
  split
  · split
    · exact Action.keeps_pure _
    · exact Action.keeps_throw _
  · split
    · refine (keeps_entry _ _).bind fun m => ?_
      exact (Action.keeps_lift _).bind fun e => Action.keeps_pure _
    · exact Action.keeps_throw _
    · exact Action.keeps_throw _

theorem keeps_pick {β : Type} (kind : Handle → Option β) (name : String) : (pick kind name).Keeps id := by
  refine (keeps_handle name).bind fun h => ?_
  cases kind h with
  | none => exact Action.keeps_throw _
  | some b => exact Action.keeps_pure _

theorem keeps_segmentArgument (choice : SegmentChoice) : (segmentArgument choice).Keeps id := by
  cases choice with
  | described entries => exact (Action.keeps_lift _).bind fun _ => Action.keeps_pure _
  | named name => exact (keeps_pick _ name).bind fun _ => Action.keeps_pure _
  | plain value => exact Action.keeps_pure _

/-- Work that begins with looking something up ends there without a trace, or goes on from the session as it was. -/
theorem run_bind_of_keeps {β γ : Type} {a : Work β} (ha : a.Keeps id) (f : β → Work γ) (s : Session) :
    (a >>= f).run s =
      match (a.run s).1 with
      | .ok b => (f b).run s
      | .error fault => (.error fault, s) := by
  have hs : (a.run s).2 = s := ha s
  rcases hr : a.run s with ⟨fault | b, s'⟩ <;> rw [hr] at hs
  · rw [Action.run_bind_of_error hr, show s' = s from hs]
  · rw [Action.run_bind_of_ok hr, show s' = s from hs]

end Session

end BeamOptics
