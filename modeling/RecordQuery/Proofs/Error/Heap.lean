import Mathlib.Data.Finset.Card
import Mathlib.Logic.Relation
import RecordQuery.Error.Shared

/-!
# Heaps of Error Nodes

The nodes of a heap hold one another. A heap is *sound* when nobody holds a node that does
not exist and no node holds itself, not even by way of others. In a sound heap every node has
an error, and what a node holds is found by looking as far as there are nodes.

A node that is added or given a cause changes the errors of those nodes alone that hold it.
A cause makes a cycle only if it holds the node already, so guarding against that keeps the
heap sound. A new node is nobody's, so it can always be put in front of an error.

## Main results

* `ErrorHeap.Sound.exists_error` — every node of a sound heap has an error;
* `ErrorHeap.Sound.error?_eq_read` — it is read off the errors of the nodes it holds;
* `ErrorHeap.Sound.error?_eq` — the error of a node depends on the nodes it holds alone;
* `ErrorHeap.Sound.setCause` — a cause that does not hold the node makes no cycle;
* `ErrorHeap.Sound.error?_setCause_self` — the error of a node that is given a cause;
* `ErrorHeap.Sound.context_eq_ok_iff` and its companions — when context can be added;
* `ErrorHeap.Sound.exists_remark` — a remark can be put in front of a new error.
-/

namespace RecordQuery

open Relation (ReflTransGen TransGen)

/-! ### Single nodes -/

/-- The report of a node grows with the error that it wraps. -/
theorem NodeContent.report?_mono {content : NodeContent} {f g : Nat → Option Error}
    (h : ∀ m, content.wrapped? = some m → ∀ e, f m = some e → g m = some e) {report : Report}
    (hreport : content.report? f = some report) : content.report? g = some report := by
  cases content with
  | report own => exact hreport
  | service wrapped | external wrapped =>
      obtain ⟨inner, hinner, rfl⟩ := Option.map_eq_some_iff.mp hreport
      rw [report?, h wrapped rfl inner hinner, Option.map_some]

namespace ErrorNode

/-- A node holds what it wraps and its cause. -/
theorem mem_targets {node : ErrorNode} {m : Nat} :
    m ∈ node.targets ↔ node.content.wrapped? = some m ∨ node.cause = some m := by
  simp [targets]

/-- The error of a node grows with the errors of the nodes it holds. -/
theorem read_mono {node : ErrorNode} {f g : Nat → Option Error}
    (h : ∀ m ∈ node.targets, ∀ e, f m = some e → g m = some e) {e : Error}
    (hread : node.read f = some e) : node.read g = some e := by
  obtain ⟨report, hreport, hcause⟩ := Option.bind_eq_some_iff.mp hread
  have hreport' : node.content.report? g = some report :=
    NodeContent.report?_mono (fun m hm => h m (mem_targets.mpr (.inl hm))) hreport
  rw [read, hreport', Option.bind_some]
  cases hc : node.cause with
  | none =>
      rw [hc] at hcause
      exact hcause
  | some cause =>
      rw [hc] at hcause
      obtain ⟨inner, hinner, rfl⟩ := Option.map_eq_some_iff.mp hcause
      simp [h cause (mem_targets.mpr (.inr hc)) inner hinner]

/-- A node has an error when all nodes that it holds have one. -/
theorem exists_read {node : ErrorNode} {f : Nat → Option Error}
    (h : ∀ m ∈ node.targets, ∃ e, f m = some e) : ∃ e, node.read f = some e := by
  have hreport : ∃ report, node.content.report? f = some report := by
    cases hcontent : node.content with
    | report own => exact ⟨own, rfl⟩
    | service wrapped | external wrapped =>
        obtain ⟨inner, hinner⟩ := h wrapped (mem_targets.mpr (.inl (by rw [hcontent]; rfl)))
        exact ⟨_, by rw [NodeContent.report?, hinner, Option.map_some]⟩
  obtain ⟨report, hreport⟩ := hreport
  rw [read, hreport, Option.bind_some]
  cases hc : node.cause with
  | none => exact ⟨_, rfl⟩
  | some cause =>
      obtain ⟨inner, hinner⟩ := h cause (mem_targets.mpr (.inr hc))
      exact ⟨inner.under report, by simp [hinner]⟩

end ErrorNode

namespace ErrorHeap

variable {heap heap' : ErrorHeap} {n m c e : Nat}

/-! ### Holding -/

/-- Whether a node holds another one by itself. -/
def Points (heap : ErrorHeap) (n m : Nat) : Prop := m ∈ heap.targets n

/-- Whether a node is another one or holds it, by itself or by way of others. -/
def Reaches (heap : ErrorHeap) : Nat → Nat → Prop := ReflTransGen heap.Points

/-- Whether a heap has no loose ends and no cycles. -/
structure Sound (heap : ErrorHeap) : Prop where
  /-- Nodes hold nodes of the heap. -/
  inside : ∀ {n m}, heap.Points n m → m < heap.size
  /-- No node holds itself. -/
  acyclic : ∀ n, ¬ TransGen heap.Points n n

/-- The heap without nodes is sound. -/
theorem sound_empty : empty.Sound where
  inside h := by simp [Points, targets, empty] at h
  acyclic n h := by
    obtain ⟨m, hm, -⟩ := TransGen.head'_iff.mp h
    simp [Points, targets, empty] at hm

/-- Only nodes of the heap hold something. -/
theorem Points.lt_size (h : heap.Points n m) : n < heap.size := by
  by_contra hn
  have hnone : heap.nodes[n]? = none := List.getElem?_eq_none (Nat.le_of_not_lt hn)
  simp [Points, targets, hnone] at h

/-- What a node of the heap holds is in the heap. -/
theorem Sound.lt_of_reaches (hs : heap.Sound) (h : heap.Reaches n m) (hn : n < heap.size) :
    m < heap.size := by
  induction h with
  | refl => exact hn
  | tail _ hstep _ => exact hs.inside hstep

/-- Two nodes that hold each other are one. -/
theorem Sound.eq_of_reaches (hs : heap.Sound) (h : heap.Reaches n m) (h' : heap.Reaches m n) :
    n = m := by
  rcases Relation.reflTransGen_iff_eq_or_transGen.mp h with heq | htrans
  · exact heq.symm
  · exact absurd (TransGen.trans_left htrans h') (hs.acyclic n)

/-! ### Distances -/

open Classical in
/-- The number of nodes that a node holds, by itself or by way of others. -/
noncomputable def rank (heap : ErrorHeap) (n : Nat) : Nat :=
  ((Finset.range heap.size).filter fun m => TransGen heap.Points n m).card

/-- A node holds more nodes than any node that it holds. -/
theorem Sound.rank_lt (hs : heap.Sound) (h : heap.Points n m) : heap.rank m < heap.rank n := by
  refine Finset.card_lt_card (Finset.ssubset_iff_of_subset ?_ |>.mpr ⟨m, ?_, ?_⟩)
  · intro k hk
    simp only [Finset.mem_filter] at hk ⊢
    exact ⟨hk.1, TransGen.head h hk.2⟩
  · simp only [Finset.mem_filter, Finset.mem_range]
    exact ⟨hs.inside h, TransGen.single h⟩
  · simp only [Finset.mem_filter, not_and]
    exact fun _ => hs.acyclic m

/-- No node of a sound heap holds all nodes. -/
theorem Sound.rank_lt_size (hs : heap.Sound) (hn : n < heap.size) : heap.rank n < heap.size := by
  have hlt : heap.rank n < (Finset.range heap.size).card := by
    classical
    exact Finset.card_lt_card
      (Finset.filter_ssubset.mpr ⟨n, Finset.mem_range.mpr hn, hs.acyclic n⟩)
  rwa [Finset.card_range] at hlt

/-! ### Errors of nodes -/

/-- The targets of a node that is there are those of the heap. -/
theorem targets_eq {node : ErrorNode} (h : heap.nodes[n]? = some node) :
    heap.targets n = node.targets := by
  rw [targets, h, Option.map_some, Option.getD_some]

/-- Looking further finds the same error. -/
theorem readWithin_mono {depth depth' : Nat} (h : depth ≤ depth') {found : Error}
    (hread : heap.readWithin depth n = some found) : heap.readWithin depth' n = some found := by
  induction depth generalizing depth' n found with
  | zero => simp [readWithin] at hread
  | succ depth ih =>
      cases depth' with
      | zero => omega
      | succ depth' =>
          obtain ⟨node, hnode, hread⟩ := Option.bind_eq_some_iff.mp hread
          rw [readWithin, hnode, Option.bind_some]
          exact ErrorNode.read_mono (fun m _ inner => ih (Nat.le_of_succ_le_succ h)) hread

/-- Looking further than a node holds nodes finds an error. -/
theorem Sound.exists_readWithin (hs : heap.Sound) {depth : Nat} (hn : n < heap.size)
    (hrank : heap.rank n < depth) : ∃ found, heap.readWithin depth n = some found := by
  induction depth generalizing n with
  | zero => omega
  | succ depth ih =>
      have hnode : heap.nodes[n]? = some heap.nodes[n] := List.getElem?_eq_getElem hn
      rw [readWithin, hnode, Option.bind_some]
      refine ErrorNode.exists_read fun m hm => ?_
      have hpoints : heap.Points n m := by rwa [Points, targets_eq hnode]
      have := hs.rank_lt hpoints
      exact ih (hs.inside hpoints) (by omega)

/-- **Every node of a sound heap has an error.** -/
theorem Sound.exists_error (hs : heap.Sound) (hn : n < heap.size) :
    ∃ found, heap.error? n = some found :=
  hs.exists_readWithin hn (hs.rank_lt_size hn)

/-- **The error of a node is read off the errors of the nodes it holds.** -/
theorem Sound.error?_eq_read (hs : heap.Sound) {node : ErrorNode}
    (hnode : heap.nodes[n]? = some node) : heap.error? n = node.read heap.error? := by
  obtain ⟨hn, -⟩ := List.getElem?_eq_some_iff.mp hnode
  obtain ⟨found, hfound⟩ := hs.exists_error hn
  obtain ⟨depth, hdepth⟩ : ∃ depth, heap.size = depth + 1 :=
    ⟨heap.size - 1, (Nat.succ_pred_eq_of_pos (Nat.zero_lt_of_lt hn)).symm⟩
  have hread : node.read (heap.readWithin depth) = some found := by
    rwa [error?, hdepth, readWithin, hnode, Option.bind_some] at hfound
  have hdeeper : ∀ m ∈ node.targets, ∀ inner, heap.readWithin depth m = some inner →
      heap.error? m = some inner := fun m _ inner => readWithin_mono (by omega)
  rw [hfound, ErrorNode.read_mono hdeeper hread]

/-- What is read at a node depends on the nodes it holds alone. -/
theorem readWithin_congr (depth : Nat)
    (h : ∀ m, heap.Reaches n m → heap'.nodes[m]? = heap.nodes[m]?) :
    heap'.readWithin depth n = heap.readWithin depth n := by
  induction depth generalizing n with
  | zero => rfl
  | succ depth ih =>
      rw [readWithin, readWithin, h n .refl]
      cases hnode : heap.nodes[n]? with
      | none => rfl
      | some node =>
          have hsame : ∀ m ∈ node.targets,
              heap'.readWithin depth m = heap.readWithin depth m := by
            intro m hm
            have hpoints : heap.Points n m := by rwa [Points, targets_eq hnode]
            exact ih fun k hk => h k (.head hpoints hk)
          rw [Option.bind_some, Option.bind_some]
          refine Option.ext fun found => ⟨?_, ?_⟩
          · exact ErrorNode.read_mono fun m hm inner hinner => hsame m hm ▸ hinner
          · exact ErrorNode.read_mono fun m hm inner hinner => (hsame m hm).symm ▸ hinner

/-- **The error of a node depends on the nodes it holds alone.** It stays the same in a heap
that is no smaller and has the same nodes where the node holds some. -/
theorem Sound.error?_eq (hs : heap.Sound) (hn : n < heap.size) (hsize : heap.size ≤ heap'.size)
    (h : ∀ m, heap.Reaches n m → heap'.nodes[m]? = heap.nodes[m]?) :
    heap'.error? n = heap.error? n := by
  obtain ⟨found, hfound⟩ := hs.exists_error hn
  rw [hfound]
  exact readWithin_mono hsize ((readWithin_congr _ h).trans hfound)

/-- What is found to be held is held. -/
theorem reaches_of_mem_heldWithin {depth : Nat} (h : m ∈ heap.heldWithin depth n) :
    heap.Reaches n m := by
  induction depth generalizing n with
  | zero => simp [heldWithin] at h
  | succ depth ih =>
      rcases List.mem_cons.mp h with rfl | h
      · exact .refl
      · obtain ⟨k, hk, hm⟩ := List.mem_flatMap.mp h
        exact .head hk (ih hm)

/-- What is held is found by looking further than a node holds nodes. -/
theorem Sound.mem_heldWithin (hs : heap.Sound) {depth : Nat} (h : heap.Reaches n m)
    (hrank : heap.rank n < depth) : m ∈ heap.heldWithin depth n := by
  induction depth generalizing n with
  | zero => omega
  | succ depth ih =>
      rcases Relation.ReflTransGen.cases_head h with rfl | ⟨k, hstep, hrest⟩
      · exact List.mem_cons_self
      · have := hs.rank_lt hstep
        exact List.mem_cons_of_mem _ (List.mem_flatMap.mpr ⟨k, hstep, ih hrest (by omega)⟩)

/-- **What a node holds** is found by looking as far as there are nodes. -/
theorem Sound.holds_iff (hs : heap.Sound) (hn : n < heap.size) :
    heap.holds n m = true ↔ heap.Reaches n m := by
  rw [holds, List.contains_iff_mem]
  exact ⟨reaches_of_mem_heldWithin, fun h => hs.mem_heldWithin h (hs.rank_lt_size hn)⟩

/-! ### A new node -/

/-- There is one node more. -/
@[simp] theorem size_add (heap : ErrorHeap) (content : NodeContent) :
    (heap.add content).size = heap.size + 1 := by
  simp [size, add]

/-- The nodes that were there stay as they are. -/
theorem nodes_add (content : NodeContent) (hn : n < heap.size) :
    (heap.add content).nodes[n]? = heap.nodes[n]? :=
  List.getElem?_append_left hn

/-- The node that is added last. -/
theorem nodes_add_self (heap : ErrorHeap) (content : NodeContent) :
    (heap.add content).nodes[heap.size]? = some ⟨content, none⟩ :=
  List.getElem?_concat_length

/-- A new node holds what it wraps, and the others hold what they held. -/
theorem points_add_iff {content : NodeContent} :
    (heap.add content).Points n m ↔
      heap.Points n m ∨ n = heap.size ∧ content.wrapped? = some m := by
  rcases Nat.lt_trichotomy n heap.size with hn | rfl | hn
  · simp [Points, targets, nodes_add content hn, Nat.ne_of_lt hn]
  · have hold : ¬ heap.Points heap.size m := fun h => Nat.lt_irrefl _ h.lt_size
    rw [Points, targets_eq (nodes_add_self heap content), ErrorNode.mem_targets]
    simp [hold]
  · have hold : ¬ heap.Points n m := fun h => absurd h.lt_size (by omega)
    have hnew : ¬ (heap.add content).Points n m := fun h => by
      have := h.lt_size
      rw [size_add] at this
      omega
    simp [hold, hnew, Nat.ne_of_gt hn]

/-- From a node that was there nothing else is reached than before. -/
theorem Sound.reaches_add_iff (hs : heap.Sound) {content : NodeContent} (hn : n < heap.size) :
    (heap.add content).Reaches n m ↔ heap.Reaches n m := by
  constructor
  · intro h
    induction h with
    | refl => exact .refl
    | tail _ hstep ih =>
        rcases points_add_iff.mp hstep with hold | ⟨rfl, -⟩
        · exact ih.tail hold
        · exact absurd (hs.lt_of_reaches ih hn) (Nat.lt_irrefl _)
  · exact ReflTransGen.mono (fun _ _ hstep => points_add_iff.mpr (.inl hstep)) n m

/-- From a node that was there the new one is not reached. -/
theorem Sound.not_reaches_add (hs : heap.Sound) (content : NodeContent) (hn : n < heap.size) :
    ¬ (heap.add content).Reaches n heap.size := fun h =>
  absurd (hs.lt_of_reaches ((hs.reaches_add_iff hn).mp h) hn) (Nat.lt_irrefl _)

/-- A new node keeps the heap sound if it wraps a node of the heap. -/
theorem Sound.add (hs : heap.Sound) {content : NodeContent}
    (hwrapped : ∀ m, content.wrapped? = some m → m < heap.size) : (heap.add content).Sound := by
  have htarget : ∀ {n m}, (heap.add content).Points n m → m < heap.size := by
    intro n m h
    rcases points_add_iff.mp h with hold | ⟨-, hnew⟩
    · exact hs.inside hold
    · exact hwrapped m hnew
  refine ⟨fun h => ?_, fun n h => ?_⟩
  · rw [size_add]
    exact Nat.lt_succ_of_lt (htarget h)
  · -- A node on a cycle is held, so it is not the new one, and the cycle was there before.
    obtain ⟨k, hstep, hrest⟩ := TransGen.head'_iff.mp h
    have hn : n < heap.size := by
      obtain ⟨_, -, hlast⟩ := TransGen.tail'_iff.mp h
      exact htarget hlast
    rcases points_add_iff.mp hstep with hold | ⟨rfl, -⟩
    · exact hs.acyclic n (.head' hold ((hs.reaches_add_iff (htarget hstep)).mp hrest))
    · exact absurd hn (Nat.lt_irrefl _)

/-- A new node leaves the errors of the others as they are. -/
theorem Sound.error?_add (hs : heap.Sound) (content : NodeContent) (hn : n < heap.size) :
    (heap.add content).error? n = heap.error? n :=
  hs.error?_eq hn (by simp) fun _ h => nodes_add content (hs.lt_of_reaches h hn)

/-- A new report wraps nothing. -/
theorem Sound.add_report (hs : heap.Sound) (report : Report) :
    (heap.add (.report report)).Sound := by
  refine hs.add fun m hm => ?_
  cases hm

/-- A new report is an error of its own. -/
theorem Sound.error?_add_self (hs : heap.Sound) (report : Report) :
    (heap.add (.report report)).error? heap.size = some (.ofReport report) := by
  rw [(hs.add_report report).error?_eq_read (nodes_add_self heap _)]
  rfl

/-! ### A cause -/

/-- No node comes or goes. -/
@[simp] theorem size_setCause (heap : ErrorHeap) (n cause : Nat) :
    (heap.setCause n cause).size = heap.size := by
  simp [size, setCause]

/-- All nodes but one stay as they are. -/
theorem nodes_setCause (hn : n ≠ c) : (heap.setCause c e).nodes[n]? = heap.nodes[n]? := by
  simp [setCause, hn.symm]

/-- The node itself keeps what it says. -/
theorem nodes_setCause_self (hc : c < heap.size) :
    (heap.setCause c e).nodes[c]? = some { heap.nodes[c] with cause := some e } := by
  rw [setCause, List.getElem?_modify, List.getElem?_eq_getElem hc]
  simp

/-- The node of a context holds its cause as well, and the others hold what they held. -/
theorem points_setCause_iff (hcause : heap.cause? c = none) (hc : c < heap.size) :
    (heap.setCause c e).Points n m ↔ heap.Points n m ∨ n = c ∧ m = e := by
  by_cases hn : n = c
  · subst hn
    have hnode : heap.nodes[n]? = some heap.nodes[n] := List.getElem?_eq_getElem hc
    have hnone : heap.nodes[n].cause = none := by rwa [cause?, hnode] at hcause
    rw [Points, Points, targets_eq hnode, targets_eq (nodes_setCause_self hc),
      ErrorNode.mem_targets, ErrorNode.mem_targets]
    simp [hnone, eq_comm]
  · simp [Points, targets, nodes_setCause hn, hn]

/-- What is reached after a cause was given was reached before, or by way of the cause. -/
theorem reaches_of_setCause (hcause : heap.cause? c = none) (hc : c < heap.size)
    (h : (heap.setCause c e).Reaches n m) :
    heap.Reaches n m ∨ heap.Reaches n c ∧ heap.Reaches e m := by
  induction h with
  | refl => exact .inl .refl
  | tail _ hstep ih =>
      rcases (points_setCause_iff hcause hc).mp hstep with hold | ⟨rfl, rfl⟩
      · exact ih.imp (·.tail hold) (fun h => ⟨h.1, h.2.tail hold⟩)
      · exact .inr ⟨ih.elim id And.left, .refl⟩

/-- **A cause that does not hold the node makes no cycle.** -/
theorem Sound.setCause (hs : heap.Sound) (hcause : heap.cause? c = none) (hc : c < heap.size)
    (he : e < heap.size) (hfree : ¬ heap.Reaches e c) : (heap.setCause c e).Sound := by
  refine ⟨fun {n m} h => ?_, fun n h => ?_⟩
  · rw [size_setCause]
    rcases (points_setCause_iff hcause hc).mp h with hold | ⟨-, rfl⟩
    · exact hs.inside hold
    · exact he
  · obtain ⟨k, hstep, hrest⟩ := TransGen.head'_iff.mp h
    have hreach := reaches_of_setCause hcause hc hrest
    rcases (points_setCause_iff hcause hc).mp hstep with hold | ⟨rfl, rfl⟩
    · rcases hreach with hback | ⟨hthere, hback⟩
      · exact hs.acyclic n (.head' hold hback)
      · exact hfree (hback.trans (.head hold hthere))
    · exact hfree (hreach.elim id And.left)

/-- A cause leaves the errors of all nodes as they are that do not hold the node. -/
theorem Sound.error?_setCause (hs : heap.Sound) (hn : n < heap.size)
    (hfree : ¬ heap.Reaches n c) : (heap.setCause c e).error? n = heap.error? n :=
  hs.error?_eq hn (by simp) fun _ h => nodes_setCause fun heq => hfree (heq ▸ h)

/-- A node that is given a cause puts its report in front of the error of the cause. -/
theorem Sound.error?_setCause_self (hs : heap.Sound) (hcause : heap.cause? c = none)
    (hc : c < heap.size) (he : e < heap.size) (hfree : ¬ heap.Reaches e c) :
    ∃ report inner, heap.error? c = some (.ofReport report) ∧ heap.error? e = some inner ∧
      (heap.setCause c e).error? c = some (inner.under report) := by
  have hnode : heap.nodes[c]? = some heap.nodes[c] := List.getElem?_eq_getElem hc
  have hnone : heap.nodes[c].cause = none := by rwa [cause?, hnode] at hcause
  obtain ⟨found, hfound⟩ := hs.exists_error hc
  obtain ⟨inner, hinner⟩ := hs.exists_error he
  have hread := hs.error?_eq_read hnode
  rw [hfound, ErrorNode.read, hnone] at hread
  obtain ⟨report, hreport, hfound'⟩ := Option.bind_eq_some_iff.mp hread.symm
  -- What the node wraps does not hold the node, or there would be a cycle.
  have hreport' : heap.nodes[c].content.report? (heap.setCause c e).error? = some report := by
    refine NodeContent.report?_mono (fun m hm found hfound => ?_) hreport
    have hpoints : heap.Points c m := by
      rw [Points, targets_eq hnode, ErrorNode.mem_targets]
      exact .inl hm
    rw [hs.error?_setCause (hs.inside hpoints)
      fun hback => hs.acyclic c (.head' hpoints hback), hfound]
  refine ⟨report, inner, hfound.trans hfound'.symm, hinner, ?_⟩
  rw [(hs.setCause hcause hc he hfree).error?_eq_read (nodes_setCause_self hc), ErrorNode.read,
    hreport', Option.bind_some]
  simp only
  rw [hs.error?_setCause he hfree, hinner, Option.map_some]

/-! ### Context -/

variable {others : List Nat}

/-- A cause that is there already is found before anything else. -/
theorem context_of_cause (hcause : heap.cause? c ≠ none) (others : List Nat) (e : Nat) :
    heap.context others e c = .error .hasCause := by
  rw [context, if_pos (Option.isSome_iff_ne_none.mpr hcause)]

/-- Whether one of several nodes holds `c` is found by looking. -/
theorem Sound.any_holds_iff (hs : heap.Sound) {roots : List Nat}
    (hroots : ∀ root ∈ roots, root < heap.size) :
    (roots.any fun root => heap.holds root c) = true ↔ ∃ root ∈ roots, heap.Reaches root c := by
  rw [List.any_eq_true]
  exact exists_congr fun root => and_congr_right fun hmem => hs.holds_iff (hroots root hmem)

/-- A node that somebody else holds cannot be given a cause. -/
theorem Sound.context_of_reaches (hs : heap.Sound) (hroots : ∀ root ∈ e :: others, root < heap.size)
    (hcause : heap.cause? c = none) (hheld : ∃ root ∈ e :: others, heap.Reaches root c) :
    heap.context others e c = .error .isShared := by
  rw [context, hcause, if_neg (by simp), if_pos ((hs.any_holds_iff hroots).mpr hheld)]

/-- A node without a cause that nobody else holds is given one. -/
theorem Sound.context_of_free (hs : heap.Sound) (hroots : ∀ root ∈ e :: others, root < heap.size)
    (hcause : heap.cause? c = none) (hfree : ¬ ∃ root ∈ e :: others, heap.Reaches root c) :
    heap.context others e c = .ok (heap.setCause c e) := by
  rw [context, hcause, if_neg (by simp), if_neg fun h => hfree ((hs.any_holds_iff hroots).mp h)]

/-- **When context can be added**, and what comes of it. -/
theorem Sound.context_eq_ok_iff (hs : heap.Sound)
    (hroots : ∀ root ∈ e :: others, root < heap.size) :
    heap.context others e c = .ok heap' ↔
      heap.cause? c = none ∧ (∀ root ∈ e :: others, ¬ heap.Reaches root c) ∧
        heap' = heap.setCause c e := by
  constructor
  · intro hok
    have hcause : heap.cause? c = none := by
      by_contra hcause
      rw [context_of_cause hcause] at hok
      cases hok
    have hfree : ¬ ∃ root ∈ e :: others, heap.Reaches root c := by
      intro hheld
      rw [hs.context_of_reaches hroots hcause hheld] at hok
      cases hok
    rw [hs.context_of_free hroots hcause hfree] at hok
    exact ⟨hcause, fun root hmem hreach => hfree ⟨root, hmem, hreach⟩, (Except.ok.inj hok).symm⟩
  · rintro ⟨hcause, hfree, rfl⟩
    exact hs.context_of_free hroots hcause fun ⟨root, hmem, hreach⟩ => hfree root hmem hreach

/-! ### Context for a new error -/

/-- Makes an error and a remark, and puts the remark in front of the error, where `others` are all
further nodes that somebody holds. The number of the remark is one more than the size of the heap
before. -/
def remark (heap : ErrorHeap) (others : List Nat) (report : Report) (message : String) :
    Except ContextFault ErrorHeap :=
  ((heap.add (.report report)).add (.report (.remark message))).context others heap.size
    (heap.size + 1)

/-- **A new report can be put in front of any error**: nobody holds it yet. All other errors stay
as they are. -/
theorem Sound.exists_context_add (hs : heap.Sound) {inner : Error}
    (he : heap.error? e = some inner) (hroots : ∀ root ∈ e :: others, root < heap.size)
    (report : Report) :
    ∃ heap', (heap.add (.report report)).context others e heap.size = .ok heap' ∧
      heap'.error? heap.size = some (inner.under report) ∧
      ∀ n < heap.size, heap'.error? n = heap.error? n := by
  have hadd : (heap.add (.report report)).Sound := hs.add_report report
  have hlt : ∀ {n}, n < heap.size → n < (heap.add (.report report)).size := fun h => by
    rw [size_add]
    exact Nat.lt_succ_of_lt h
  have hfree : ∀ n < heap.size, ¬ (heap.add (.report report)).Reaches n heap.size :=
    fun n hn => hs.not_reaches_add _ hn
  have hcause : (heap.add (.report report)).cause? heap.size = none := by
    rw [cause?, nodes_add_self]
    rfl
  have hlast : heap.size < (heap.add (.report report)).size := by
    rw [size_add]
    exact Nat.lt_succ_self _
  have hbehind : e < heap.size := hroots e List.mem_cons_self
  have hunshared : ¬ ∃ root ∈ e :: others, (heap.add (.report report)).Reaches root heap.size := by
    rintro ⟨root, hmem, hreach⟩
    exact hfree root (hroots root hmem) hreach
  have hok := hadd.context_of_free (fun root hmem => hlt (hroots root hmem)) hcause hunshared
  obtain ⟨own, found, hown, hfound, hself⟩ :=
    hadd.error?_setCause_self hcause hlast (hlt hbehind) (hfree e hbehind)
  rw [hs.error?_add_self report] at hown
  rw [hs.error?_add _ hbehind, he] at hfound
  cases hown
  cases hfound
  exact ⟨_, hok, hself, fun n hn =>
    (hadd.error?_setCause (hlt hn) (hfree n hn)).trans (hs.error?_add _ hn)⟩

/-- **A remark can be put in front of a new error.** -/
theorem Sound.exists_remark (hs : heap.Sound) (hothers : ∀ root ∈ others, root < heap.size)
    (report : Report) (message : String) :
    ∃ heap', heap.remark others report message = .ok heap' ∧
      heap'.error? (heap.size + 1) = some ((Error.ofReport report).under (.remark message)) ∧
      ∀ n < heap.size, heap'.error? n = heap.error? n := by
  have hfirst : (heap.add (.report report)).Sound := hs.add_report report
  have hroots : ∀ root ∈ heap.size :: others, root < (heap.add (.report report)).size := by
    intro root hmem
    rw [size_add]
    rcases List.mem_cons.mp hmem with rfl | hmem
    · exact Nat.lt_succ_self _
    · exact Nat.lt_succ_of_lt (hothers root hmem)
  obtain ⟨heap', hok, hself, hothers'⟩ :=
    hfirst.exists_context_add (hs.error?_add_self report) hroots (.remark message)
  rw [size_add] at hok hself hothers'
  exact ⟨heap', hok, hself, fun n hn =>
    (hothers' n (Nat.lt_succ_of_lt hn)).trans (hs.error?_add _ hn)⟩

end ErrorHeap

end RecordQuery
