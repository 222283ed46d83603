import Tabular.Proofs.Inference.Observation
import Mathlib.Data.List.Induction

/-! # Every schedule of a pool

Batches leave the dispatcher in order, pass the queue in order and are received by one worker each.
What all workers have seen, merged, is at every moment what one look at the rows received so far
gives. A pool is never stuck, and the number of its moves is bounded, so it comes to its end.
-/
namespace Tabular.Inference
open Schema (ColumnState)

abbrev Delivery := Nat × List Row

def rowsReceivedBy (i : Nat) (ds : List Delivery) : List Row :=
  (ds.filter (·.1 = i)).flatMap (·.2)

def rowsReceived (ds : List Delivery) : List Row := ds.flatMap (·.2)

theorem rowsReceived_eq (ds : List Delivery) : rowsReceived ds = (ds.map (·.2)).flatten :=
  List.flatMap_def

theorem rowsReceivedBy_concat (i : Nat) (ds : List Delivery) (d : Delivery) :
    rowsReceivedBy i (ds ++ [d]) = rowsReceivedBy i ds ++ (if d.1 = i then d.2 else []) := by
  by_cases h : d.1 = i <;> simp [rowsReceivedBy, h]

theorem rowsReceived_concat (ds : List Delivery) (d : Delivery) :
    rowsReceived (ds ++ [d]) = rowsReceived ds ++ d.2 := by
  simp [rowsReceived]

namespace Pool
variable {o : Options} {p p' : Pool} {m : Move} {moves : List Move}

/-- The moves of a pool, with what makes each of them possible. -/
inductive Moves (o : Options) (p : Pool) : Move → Pool → Prop
  | sends {b bs} (hw : p.waiting = b :: bs) (hroom : p.queue.length < p.capacity) :
    Moves o p .send { p with waiting := bs, queue := p.queue ++ [b] }
  | closes (hw : p.waiting = []) (hc : p.closed = false) :
    Moves o p .close { p with closed := true }
  | receives {i w b bs} (hi : p.workers[i]? = some w) (hq : p.queue = b :: bs)
      (hl : w.left = false) :
    Moves o p (.receive i) { p with
      queue := bs, workers := p.workers.set i { w with states := observeRows o w.states b } }
  | leaves {i w} (hi : p.workers[i]? = some w) (hq : p.queue = []) (hc : p.closed = true)
      (hl : w.left = false) :
    Moves o p (.leave i) { p with workers := p.workers.set i { w with left := true } }

theorem moves_of_step (h : p.step o m = some p') : Moves o p m p' := by
  cases m with
  | send =>
    simp only [step] at h
    split at h
    · next b bs hw =>
      split at h <;> cases h
      exact .sends hw ‹_›
    · cases h
  | close =>
    simp only [step] at h
    split at h <;> cases h
    next hc =>
      simp only [Bool.and_eq_true, List.isEmpty_iff, Bool.not_eq_true'] at hc
      exact .closes hc.1 hc.2
  | receive i =>
    simp only [step] at h
    split at h
    · next w b bs hi hq =>
      split at h <;> cases h
      next hl => exact .receives hi hq (by simpa using hl)
    · cases h
  | leave i =>
    simp only [step] at h
    split at h
    · next w hi hq =>
      split at h <;> cases h
      next hl =>
        simp only [Bool.and_eq_true, Bool.not_eq_true'] at hl
        exact .leaves hi hq hl.1 hl.2
    · cases h

theorem Moves.step (h : Moves o p m p') : p.step o m = some p' := by
  cases h with
  | sends hw hroom => simp [Pool.step, hw, hroom]
  | closes hw hc => simp [Pool.step, hw, hc]
  | receives hi hq hl => simp [Pool.step, hi, hq, hl]
  | leaves hi hq hc hl => simp [Pool.step, hi, hq, hc, hl]

theorem run_concat : p.run o (moves ++ [m]) = (p.run o moves).bind (step o · m) := by
  simp [run, List.foldlM_append]

/-- What holds at the beginning and is kept by each move holds along every run. -/
theorem run_induction {motive : List Move → Pool → Prop} (h₀ : motive [] p)
    (hstep : ∀ {moves q m q'}, p.run o moves = some q → motive moves q → Moves o q m q' →
      motive (moves ++ [m]) q') (h : p.run o moves = some p') : motive moves p' := by
  induction moves using List.reverseRecOn generalizing p' with
  | nil =>
    obtain rfl : p = p' := by simpa [run] using h
    exact h₀
  | append_singleton moves m ih =>
    rw [run_concat] at h
    obtain ⟨q,hq,hs⟩ := Option.bind_eq_some_iff.mp h
    exact hstep hq (ih hq) (moves_of_step hs)

def delivery? (p : Pool) : Move → Option Delivery
  | .receive i => p.queue.head?.map fun b => (i, b)
  | _ => none

def deliveries (o : Options) (p : Pool) : List Move → List Delivery
  | [] => []
  | m :: moves => match p.step o m with
    | some p' => (p.delivery? m).toList ++ deliveries o p' moves
    | none => []

theorem deliveries_concat (h : p.run o moves = some p') (hm : (p'.step o m).isSome) :
    deliveries o p (moves ++ [m]) = deliveries o p moves ++ (p'.delivery? m).toList := by
  induction moves generalizing p with
  | nil =>
    obtain rfl : p = p' := by simpa [run] using h
    obtain ⟨q,hq⟩ := Option.isSome_iff_exists.mp hm
    simp [deliveries, hq]
  | cons n moves ih =>
    have h' : (p.step o n).bind (·.run o moves) = some p' := h
    obtain ⟨q,hq,hr⟩ := Option.bind_eq_some_iff.mp h'
    have hd := ih hr
    simp [deliveries, hq, hd]

/-- How a pool stands after some deliveries. -/
structure Accounted (o : Options) (count width : Nat) (batches : List (List Row))
    (ds : List Delivery) (p : Pool) : Prop where
  /-- Nothing is lost, doubled or moved out of order on the way. -/
  order : ds.map (·.2) ++ p.queue ++ p.waiting = batches
  receivers : ∀ d ∈ ds, d.1 < count
  headcount : p.workers.length = count
  capacity : p.capacity = 2 * count
  bounded : p.queue.length ≤ p.capacity
  states : ∀ i w, p.workers[i]? = some w →
    w.states = observeRows o (blankStates width) (rowsReceivedBy i ds)
  merged : p.merged width = observeRows o (blankStates width) (rowsReceived ds)
  closed : p.closed = true → p.waiting = []
  left : ∀ w ∈ p.workers, w.left = true → p.closed = true ∧ p.queue = []

variable {count width : Nat} {batches : List (List Row)} {ds : List Delivery}

theorem mergeAll_blank (count width : Nat) :
    mergeAll (blankStates width) (List.replicate count ⟨blankStates width,false⟩) =
      blankStates width := by
  induction count with
  | zero => rfl
  | succ count ih =>
    rw [List.replicate_succ]
    unfold mergeAll at ih ⊢
    rw [List.foldl_cons, mergeStates_self, ih]

theorem accounted_start (o : Options) (count width : Nat) (batches : List (List Row)) :
    Accounted o count width batches [] (start count width batches) := by
  have hw : ∀ w ∈ (start count width batches).workers, w = ⟨blankStates width,false⟩ :=
    fun w h => List.eq_of_mem_replicate h
  refine ⟨rfl,by simp,by simp [start],rfl,by simp [start],?_,mergeAll_blank count width,?_,?_⟩
  · intro i w hi
    rw [hw w (List.mem_of_getElem? hi)]
    rfl
  · intro h
    cases h
  · intro w hmem hl
    rw [hw w hmem] at hl
    cases hl

/-- What holds of each worker holds after one of them has changed if it holds of that one. -/
theorem forall_getElem?_set {P : Nat → Worker → Prop} {workers : List Worker} {i : Nat} {w : Worker}
    (hi : P i w) (h : ∀ j v, i ≠ j → workers[j]? = some v → P j v) :
    ∀ j v, (workers.set i w)[j]? = some v → P j v := by
  intro j v hj
  by_cases hij : i = j
  · subst hij
    have hlt : i < workers.length := by simpa using (List.getElem?_eq_some_iff.mp hj).1
    rw [List.getElem?_set_self hlt] at hj
    cases hj
    exact hi
  · rw [List.getElem?_set_ne hij] at hj
    exact h j v hij hj

theorem Moves.accounted (hm : Moves o p m p') (h : Accounted o count width batches ds p) :
    Accounted o count width batches (ds ++ (p.delivery? m).toList) p' := by
  have hleft : ∀ w ∈ p.workers, w.left = true → p.closed = true ∧ p.queue = [] := h.left
  cases hm with
  | @sends b bs hw hroom =>
    -- no worker has left as long as there is something to send
    have hopen : p.closed = false := by
      by_contra hc
      have hn := h.closed (by simpa using hc)
      simp [hn] at hw
    simp only [delivery?, Option.toList_none, List.append_nil]
    refine ⟨?_,h.receivers,h.headcount,h.capacity,?_,h.states,h.merged,?_,?_⟩
    · have ho := h.order
      rw [hw] at ho
      simpa using ho
    · simp only [List.length_append, List.length_singleton]
      omega
    · intro hc
      simp [hopen] at hc
    · intro w hmem hl
      have hc := (hleft w hmem hl).1
      simp [hopen] at hc
  | closes hw hc =>
    simp only [delivery?, Option.toList_none, List.append_nil]
    refine ⟨h.order,h.receivers,h.headcount,h.capacity,h.bounded,h.states,h.merged,fun _ => hw,?_⟩
    exact fun w hmem hl => ⟨rfl,(hleft w hmem hl).2⟩
  | @receives i w b bs hi hq hl =>
    have hd : (p.delivery? (.receive i)).toList = [(i, b)] := by simp [delivery?, hq]
    have hlt : i < p.workers.length := (List.getElem?_eq_some_iff.mp hi).1
    rw [hd]
    refine ⟨?_,?_,?_,h.capacity,?_,?_,?_,h.closed,?_⟩
    · have ho := h.order
      rw [hq] at ho
      simpa using ho
    · intro d hmem
      rcases List.mem_append.mp hmem with hmem | hmem
      · exact h.receivers d hmem
      · obtain rfl := List.mem_singleton.mp hmem
        exact h.headcount ▸ hlt
    · simpa using h.headcount
    · have hb := h.bounded
      rw [hq, List.length_cons] at hb
      dsimp only
      omega
    · refine forall_getElem?_set ?_ (fun j v hij hj => ?_)
      · rw [rowsReceivedBy_concat, if_pos rfl, observeRows_append, ← h.states i w hi]
      · rw [rowsReceivedBy_concat, if_neg hij, List.append_nil]
        exact h.states j v hj
    · rw [rowsReceived_concat, observeRows_append, ← h.merged]
      exact mergeAll_set hi rfl _
    · intro v hmem hv
      rcases List.mem_or_eq_of_mem_set hmem with hmem | rfl
      · have hn := (hleft v hmem hv).2
        simp [hn] at hq
      · simp [hl] at hv
  | @leaves i w hi hq hc hl =>
    simp only [delivery?, Option.toList_none, List.append_nil]
    refine ⟨h.order,h.receivers,by simpa using h.headcount,h.capacity,h.bounded,?_,?_,h.closed,?_⟩
    · exact forall_getElem?_set (h.states i w hi) (fun j v _ hj => h.states j v hj)
    · have hs : ({ w with left := true } : Worker).states = observeRows o w.states [] := rfl
      have hmerged := mergeAll_set hi hs (blankStates width)
      exact hmerged.trans h.merged
    · exact fun _ _ _ => ⟨hc,hq⟩

theorem accounted_of_run (h : (start count width batches).run o moves = some p) :
    Accounted o count width batches ((start count width batches).deliveries o moves) p := by
  refine run_induction (motive := fun moves p => Accounted o count width batches
    ((start count width batches).deliveries o moves) p) (accounted_start o count width batches) ?_ h
  intro moves q m q' hq ha hm
  rw [deliveries_concat hq (by rw [hm.step]; rfl)]
  exact hm.accounted ha

end Pool
end Tabular.Inference
