import Tabular.Proofs.Transfer.Throttle

/-! # The writes of a run

A batch is offered to the sink when its write begins, in the order of the reads, and it is written
when that write succeeds. So the batches written are a prefix of those offered, and these of those
read; as long as the pusher goes on, no more than one offer is open.
-/
namespace Tabular.Transfer

namespace Event

def ofWrite : Event → Bool
  | writeStarts | writeReturns _ | writePanics _ => true
  | _ => false

def startsWrite : Event → Bool
  | writeStarts => true
  | _ => false

def writeSucceeds : Event → Bool
  | writeReturns (.ok _) => true
  | _ => false

end Event

def writeCallsIn (es : List Event) : List Event := es.filter Event.ofWrite

def writesStartedIn (es : List Event) : Nat := es.countP Event.startsWrite

def writesSucceededIn (es : List Event) : Nat := es.countP Event.writeSucceeds

@[simp] theorem writeCallsIn_concat (es : List Event) (e : Event) :
    writeCallsIn (es ++ [e]) = writeCallsIn es ++ if e.ofWrite then [e] else [] := by
  cases h : e.ofWrite <;> simp [writeCallsIn, h]

def Pusher.openCall : Pusher → List Event
  | .writing _ => [.writeStarts]
  | _ => []

def Pusher.offered : Pusher → List Batch
  | .writing b => [b]
  | _ => []

namespace Run
variable {r r' r₀ : Run} {e : Event} {es fs : List Event} {capacity : Nat} {cancelled : Bool}

def batchOffered? (r : Run) : Event → Option Batch
  | .writeStarts => match r.pusher with
    | .holding b => some b
    | _ => none
  | _ => none

/-- The batches offered to the sink along events from a run on, in order. -/
def batchesOfferedIn (r : Run) (es : List Event) : List Batch := r.along batchOffered? es

theorem batchesOfferedIn_append (h : r₀.steps es = some r) (fs : List Event) :
    r₀.batchesOfferedIn (es ++ fs) = r₀.batchesOfferedIn es ++ r.batchesOfferedIn fs :=
  along_append h fs

theorem batchesOfferedIn_concat (h : r₀.steps es = some r) (e : Event) :
    r₀.batchesOfferedIn (es ++ [e]) =
      r₀.batchesOfferedIn es ++ (r.batchOffered? e).toList :=
  along_concat h e

theorem batchesOfferedIn_eq_nil (h : Event.writeStarts ∉ es) : r.batchesOfferedIn es = [] := by
  induction es generalizing r with
  | nil => rfl
  | cons e es ih =>
    rw [List.mem_cons, not_or] at h
    obtain ⟨he,hes⟩ := h
    have ho : r.batchOffered? e = none := by cases e <;> simp_all [batchOffered?]
    rw [batchesOfferedIn, along, ho]
    cases hs : r.step e with
    | none => rfl
    | some next => exact ih hes

/-- A view that shows one thing in each event of a kind shows as many as there are such events. -/
theorem length_along {α : Type} {view : Run → Event → Option α} {p : Event → Bool}
    (hv : ∀ {r e r'}, Moves r e r' → (view r e).toList.length = (p e).toNat)
    (h : r₀.steps es = some r) : (r₀.along view es).length = es.countP p := by
  refine steps_induction (motive := fun es _ => (r₀.along view es).length = es.countP p) rfl ?_ h
  intro es r e r' hs ih hm
  have hshown := hv hm
  rw [along_concat hs, List.length_append, List.countP_append]
  cases hp : p e <;> simp_all

theorem Moves.length_batchOffered? (hm : Moves r e r') :
    (r.batchOffered? e).toList.length = e.startsWrite.toNat := by
  cases hm with
  | writeStarts hp hf => simp [batchOffered?, Event.startsWrite, hp]
  | _ => rfl

theorem Moves.length_batchWritten? (hm : Moves r e r') :
    (r.batchWritten? e).toList.length = e.writeSucceeds.toNat := by
  cases hm with
  | writeSucceeds hp => simp [batchWritten?, Event.writeSucceeds, hp]
  | _ => rfl

theorem length_batchesOfferedIn (h : r₀.steps es = some r) :
    (r₀.batchesOfferedIn es).length = writesStartedIn es :=
  length_along Moves.length_batchOffered? h

theorem length_batchesWrittenIn (h : r₀.steps es = some r) :
    (r₀.batchesWrittenIn es).length = writesSucceededIn es := by
  rw [batchesWrittenIn_eq_along]
  exact length_along Moves.length_batchWritten? h

/-- How the batches read, offered and written lie to each other. -/
structure Offered (read offered written : List Batch) (r : Run) : Prop where
  offered_read : offered <+: read
  written_offered : written <+: offered
  going : r.pusher.ended = false → offered = written ++ r.pusher.offered

theorem Moves.offered {read offered written : List Batch} (hm : Moves r e r')
    (ho : Ordered read written r) (h : Offered read offered written r) :
    Offered (read ++ e.batchRead?.toList) (offered ++ (r.batchOffered? e).toList)
      (written ++ (r.batchWritten? e).toList) r' := by
  obtain ⟨hr,hw,hg⟩ := h
  have hsent := ho.sent
  cases hm
  all_goals
    simp only [Event.batchRead?, batchOffered?, batchWritten?, Option.toList_none,
      List.append_nil]
  case readGives b hp => exact ⟨hr.trans (List.prefix_append _ _),hw,hg⟩
  case receives b bs hp hq hf =>
    have hs := hg (by rw [hp]; rfl)
    rw [hp] at hs
    exact ⟨hr,hw,fun _ => hs⟩
  case writeStarts b hp hf =>
    -- the batch in hand comes next after what has been written, in the order of the reads
    have hs := hg (by rw [hp]; rfl)
    rw [hp] at hs hsent
    simp only [hp, Pusher.offered, List.append_nil] at hs ⊢
    subst hs
    exact ⟨(List.prefix_append _ _).trans hsent,List.prefix_append _ _,fun _ => rfl⟩
  case writeSucceeds b hp =>
    have hs := hg (by rw [hp]; rfl)
    rw [hp] at hs
    simp only [hp, Option.toList_some]
    refine ⟨hr,?_,fun _ => ?_⟩
    · exact hs ▸ List.prefix_rfl
    · exact hs.trans (List.append_nil _).symm
  case writeFails hp | writePanics hp | pusherStops hm =>
    exact ⟨hr,hw,fun he => by cases he⟩
  all_goals exact ⟨hr,hw,hg⟩

theorem offered_of_steps (h : (start capacity cancelled).steps es = some r) :
    Offered (batchesReadIn es) ((start capacity cancelled).batchesOfferedIn es)
      ((start capacity cancelled).batchesWrittenIn es) r := by
  refine steps_induction (motive := fun es r => Offered (batchesReadIn es)
    ((start capacity cancelled).batchesOfferedIn es)
    ((start capacity cancelled).batchesWrittenIn es) r) ?_ ?_ h
  · exact ⟨List.prefix_rfl,List.prefix_rfl,fun _ => rfl⟩
  · intro es r e r' hs ih hm
    rw [batchesReadIn_concat, batchesOfferedIn_concat hs, batchesWrittenIn_concat hs]
    exact hm.offered (ordered_of_steps hs) ih

end Run
end Tabular.Transfer
