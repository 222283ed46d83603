import Tabular.Proofs.Inference.Pool

/-! # Pools come to their end

As long as somebody is not through, somebody can move, and each move uses up some of the work that
is left. What is left is counted, so a run is as long as the work it has done. One schedule that
goes to the end hands the batches out in turn.
-/
namespace Tabular.Inference.Pool
open Schema (ColumnState)

variable {o : Options} {p p' : Pool} {m : Move} {moves : List Move}
variable {count width : Nat} {batches : List (List Row)} {ds : List Delivery}

/-- The moves that a pool has before it: two for a batch not yet sent, one for a batch in the queue,
one to close, and one for each worker to leave. -/
def movesLeft (p : Pool) : Nat :=
  2 * p.waiting.length + p.queue.length + (!p.closed).toNat + p.workers.countP (!·.left)

theorem countP_set_left {workers : List Worker} {i : Nat} {w : Worker}
    (hi : workers[i]? = some w) (w' : Worker) :
    (workers.set i w').countP (!·.left) + (!w.left).toNat =
      workers.countP (!·.left) + (!w'.left).toNat := by
  induction workers generalizing i with
  | nil => simp at hi
  | cons v workers ih =>
    cases i with
    | zero =>
      obtain rfl : v = w := by simpa using hi
      cases hv : v.left <;> cases hw : w'.left <;> simp [hv, hw]
    | succ i =>
      have h := ih (i := i) (by simpa using hi)
      rw [List.set_cons_succ, List.countP_cons, List.countP_cons]
      omega

/-- Each move is one of those that were left. -/
theorem Moves.movesLeft (hm : Moves o p m p') : p'.movesLeft + 1 = p.movesLeft := by
  cases hm with
  | sends hw hroom =>
    simp only [Pool.movesLeft, hw, List.length_append, List.length_cons, List.length_nil]
    omega
  | closes hw hc =>
    simp only [Pool.movesLeft, hc, Bool.not_true, Bool.not_false, Bool.toNat_true, Bool.toNat_false]
    omega
  | @receives i w b bs hi hq hl =>
    have h := countP_set_left hi { w with states := observeRows o w.states b }
    simp only [Pool.movesLeft, hq, List.length_cons] at h ⊢
    omega
  | @leaves i w hi hq hc hl =>
    have h := countP_set_left hi { w with left := true }
    simp only [hl, Bool.not_true, Bool.not_false, Bool.toNat_true, Bool.toNat_false] at h
    simp only [Pool.movesLeft]
    omega

theorem movesLeft_start (count width : Nat) (batches : List (List Row)) :
    (start count width batches).movesLeft = 2 * batches.length + 1 + count := by
  simp [movesLeft, start, List.countP_replicate]

theorem length_of_run (h : p.run o moves = some p') :
    moves.length + p'.movesLeft = p.movesLeft := by
  refine run_induction (motive := fun moves p' => moves.length + p'.movesLeft = p.movesLeft)
    (by simp) ?_ h
  intro moves q m q' _ hl hm
  have hs := hm.movesLeft
  rw [List.length_append, List.length_singleton]
  omega

/-- Dispatcher and workers are through exactly when no move is left. -/
theorem finished_iff_movesLeft (h : Accounted o count width batches ds p) (hcount : 1 ≤ count) :
    p.finished = true ↔ p.movesLeft = 0 := by
  constructor
  · intro hf
    simp only [finished, Bool.and_eq_true, List.all_eq_true] at hf
    obtain ⟨hc,hw⟩ := hf
    obtain ⟨w,hmem⟩ := List.exists_mem_of_length_pos (by rw [h.headcount]; exact hcount)
    have hq := (h.left w hmem (hw w hmem)).2
    have hn : p.workers.countP (!·.left) = 0 :=
      List.countP_eq_zero.mpr fun v hv => by simp [hw v hv]
    simp [movesLeft, h.closed hc, hq, hc, hn]
  · intro hz
    simp only [movesLeft, Nat.add_eq_zero_iff, Bool.toNat_eq_zero, List.countP_eq_zero] at hz
    obtain ⟨⟨_,hc⟩,hw⟩ := hz
    simp only [finished, Bool.and_eq_true, List.all_eq_true]
    exact ⟨by simpa using hc,fun w hmem => by simpa using hw w hmem⟩

/-- A pool is not stuck before everyone is through. -/
theorem exists_step (h : Accounted o count width batches ds p) (hcount : 1 ≤ count)
    (hf : p.finished = false) : ∃ m p', p.step o m = some p' := by
  have hpos : 0 < p.workers.length := by rw [h.headcount]; exact hcount
  have hfirst : p.workers[0]? = some p.workers[0] := List.getElem?_eq_getElem hpos
  cases hq : p.queue with
  | cons b bs =>
    -- a worker leaves only when the queue is empty, so the first one is still there
    have hl : p.workers[0].left = false := by
      by_contra hl
      have hn := (h.left _ (List.getElem_mem hpos) (by simpa using hl)).2
      simp [hn] at hq
    exact ⟨_,_,(Moves.receives hfirst hq hl).step⟩
  | nil =>
    cases hw : p.waiting with
    | cons b bs =>
      have hroom : p.queue.length < p.capacity := by
        rw [hq, h.capacity, List.length_nil]
        omega
      exact ⟨_,_,(Moves.sends hw hroom).step⟩
    | nil =>
      cases hc : p.closed with
      | false => exact ⟨_,_,(Moves.closes hw hc).step⟩
      | true =>
        simp only [finished, hc, Bool.true_and, List.all_eq_false] at hf
        obtain ⟨w,hmem,hl⟩ := hf
        obtain ⟨i,hi⟩ := List.mem_iff_getElem?.mp hmem
        exact ⟨_,_,(Moves.leaves hi hq hc (by simpa using hl)).step⟩

/-- Every run goes on to an end. -/
theorem exists_finished (hcount : 1 ≤ count)
    (h : (start count width batches).run o moves = some p) :
    ∃ moves' p', (start count width batches).run o (moves ++ moves') = some p' ∧
      p'.finished = true := by
  induction hn : p.movesLeft generalizing p moves with
  | zero =>
    have hf := (finished_iff_movesLeft (accounted_of_run h) hcount).mpr hn
    exact ⟨[],p,by rw [List.append_nil]; exact h,hf⟩
  | succ n ih =>
    have ha := accounted_of_run h
    have hf : p.finished = false := by
      by_contra hf
      have hz := (finished_iff_movesLeft ha hcount).mp (by simpa using hf)
      omega
    obtain ⟨m,q,hs⟩ := exists_step ha hcount hf
    have hq : (start count width batches).run o (moves ++ [m]) = some q := by
      rw [run_concat, h]
      exact hs
    have hless := (moves_of_step hs).movesLeft
    obtain ⟨moves',p',hr,hp'⟩ := ih hq (by omega)
    rw [List.append_assoc] at hr
    exact ⟨_,p',hr,hp'⟩

/-- When everyone is through, every batch has been received. -/
theorem Accounted.delivered (h : Accounted o count width batches ds p) (hcount : 1 ≤ count)
    (hf : p.finished = true) : ds.map (·.2) = batches := by
  have hn := (finished_iff_movesLeft h hcount).mp hf
  simp only [movesLeft, Nat.add_eq_zero_iff] at hn
  have hw : p.waiting = [] := List.eq_nil_of_length_eq_zero (by omega)
  have hq : p.queue = [] := List.eq_nil_of_length_eq_zero hn.1.1.2
  have ho := h.order
  rw [hw, hq, List.append_nil, List.append_nil] at ho
  exact ho

/-- Whatever the schedule, the workers together find what one look at all rows gives. -/
theorem Accounted.merged_of_finished (h : Accounted o count width batches ds p)
    (hcount : 1 ≤ count) (hf : p.finished = true) :
    p.merged width = observeRows o (blankStates width) batches.flatten := by
  rw [h.merged, rowsReceived_eq, h.delivered hcount hf]

theorem observeAlong_eq_some {states : List ColumnState} (hcount : 1 ≤ count)
    (h : observeAlong o count width batches moves = some states) :
    states = observeRows o (blankStates width) batches.flatten := by
  unfold observeAlong at h
  split at h
  · next p hr =>
    split at h <;> cases h
    next hf => exact (accounted_of_run hr).merged_of_finished hcount hf
  · cases h

theorem run_append (h : p.run o moves = some p') (moves' : List Move) :
    p.run o (moves ++ moves') = p'.run o moves' := by
  simp only [run] at h ⊢
  rw [List.foldlM_append, h]
  rfl

theorem run_cons (h : p.step o m = some p') (moves : List Move) :
    p.run o (m :: moves) = p'.run o moves := by
  simp only [run, List.foldlM_cons, h]
  rfl

/-- Each batch is sent and received at once, by the next worker in turn. -/
theorem run_handing (o : Options) (width : Nat) (batches : List (List Row)) (hcount : 1 ≤ count)
    {n : Nat} (hn : n ≤ batches.length) :
    ∃ p, (start count width batches).run o
        ((List.range n).flatMap fun i => [.send, .receive (i % count)]) = some p ∧
      p.waiting = batches.drop n ∧ p.queue = [] ∧ p.closed = false := by
  induction n with
  | zero => exact ⟨_,rfl,rfl,rfl,rfl⟩
  | succ n ih =>
    obtain ⟨p,hr,hw,hq,hc⟩ := ih (Nat.le_of_succ_le hn)
    have ha := accounted_of_run hr
    have hlt : n % count < p.workers.length := by
      rw [ha.headcount]
      exact Nat.mod_lt n hcount
    have hi := List.getElem?_eq_getElem hlt
    have hl : p.workers[n % count].left = false := by
      by_contra hl
      have hn := (ha.left _ (List.getElem_mem hlt) (by simpa using hl)).1
      simp [hc] at hn
    have hroom : p.queue.length < p.capacity := by
      rw [hq, ha.capacity, List.length_nil]
      omega
    rw [List.drop_eq_getElem_cons hn] at hw
    have hsend := (Moves.sends (o := o) hw hroom).step
    let sent : Pool := { p with waiting := batches.drop (n + 1), queue := p.queue ++ [batches[n]] }
    have hq' : sent.queue = batches[n] :: [] := by simp [sent, hq]
    have hreceive := (Moves.receives (o := o) (p := sent) hi hq' hl).step
    have hrun := (run_cons hsend _).trans (run_cons hreceive [])
    rw [← run_append hr] at hrun
    rw [List.range_succ, List.flatMap_append]
    exact ⟨_,hrun,rfl,rfl,hc⟩

/-- The first workers leave in turn. -/
theorem run_leaving {n : Nat} (hn : n ≤ p.workers.length) (hc : p.closed = true)
    (hq : p.queue = []) (hl : ∀ w ∈ p.workers, w.left = false) :
    ∃ p', p.run o ((List.range n).map .leave) = some p' ∧ p'.closed = true ∧ p'.queue = [] ∧
      ∀ i, n ≤ i → p'.workers[i]? = p.workers[i]? := by
  induction n with
  | zero => exact ⟨p,rfl,hc,hq,fun _ _ => rfl⟩
  | succ n ih =>
    obtain ⟨q,hr,hc',hq',hw⟩ := ih (Nat.le_of_succ_le hn)
    have hi : q.workers[n]? = some p.workers[n] := by
      rw [hw n (Nat.le_refl n)]
      exact List.getElem?_eq_getElem hn
    have hleave := (Moves.leaves (o := o) hi hq' hc' (hl _ (List.getElem_mem hn))).step
    have hrun := run_cons hleave []
    rw [← run_append hr] at hrun
    rw [List.range_succ, List.map_append]
    refine ⟨_,hrun,?_⟩
    refine ⟨hc',hq',fun i hle => ?_⟩
    rw [List.getElem?_set_ne (by omega)]
    exact hw i (Nat.le_of_succ_le hle)

/-- The round-robin schedule goes to the end. -/
theorem observeAlong_roundRobin (o : Options) (hcount : 1 ≤ count) (width : Nat)
    (batches : List (List Row)) :
    observeAlong o count width batches (roundRobin count batches.length) =
      some (observeRows o (blankStates width) batches.flatten) := by
  obtain ⟨p,hr,hw,hq,hc⟩ := run_handing o width batches hcount (Nat.le_refl _)
  have ha := accounted_of_run hr
  rw [List.drop_length] at hw
  have hclose := (Moves.closes (o := o) hw hc).step
  have hl : ∀ w ∈ p.workers, w.left = false := by
    intro w hmem
    by_contra hl
    have hn := (ha.left w hmem (by simpa using hl)).1
    simp [hc] at hn
  have hcount' : count ≤ p.workers.length := Nat.le_of_eq ha.headcount.symm
  obtain ⟨p',hr',_⟩ := run_leaving (o := o) (p := { p with closed := true }) hcount' rfl hq hl
  have hrun : (start count width batches).run o (roundRobin count batches.length) = some p' := by
    rw [roundRobin, run_append hr, run_cons hclose]
    exact hr'
  have hlen := length_of_run hrun
  have hmoves : (roundRobin count batches.length).length = 2 * batches.length + 1 + count := by
    simp [roundRobin]
    omega
  rw [movesLeft_start, hmoves] at hlen
  have ha' := accounted_of_run hrun
  have hf := (finished_iff_movesLeft ha' hcount).mpr (by omega)
  simp [observeAlong, hrun, hf, ha'.merged_of_finished hcount hf]

theorem observe_eq (o : Options) (hcount : 1 ≤ count) (width : Nat) (batches : List (List Row)) :
    observe o count width batches = observeRows o (blankStates width) batches.flatten := by
  rw [observe, observeAlong_roundRobin o hcount]
  rfl

end Tabular.Inference.Pool
