import RecordQuery.Proofs.Error.Heap
import RecordQuery.Proofs.Session.Action

/-!
# Effects of Steps

A step has at most one *effect* on the stores and the nodes of errors: it makes a node or a
store, sends a request, or gives a node a cause. A *change* is what such a step leaves behind:
nothing else about stores and nodes is different, and names lead where they led before, or to
what the effect opens up.

A session is *sound* when names lead to stores and nodes that are there and the heap of nodes
is sound. Changes keep sessions sound.

## Main results

* `Session.Change.sound` — a change keeps a session sound;
* `Session.Change.holds_cause` — what is still held when a node was given a cause;
* `Session.Change.error?_eq` — the errors that are held stay the same.
-/

namespace RecordQuery

/-! ### Effects -/

/-- What a step does to the stores and the nodes. -/
inductive Effect where
  /-- Nothing. -/
  | nothing
  /-- A new node. -/
  | node (content : NodeContent)
  /-- A new store. -/
  | store (response : Response)
  /-- A request to a store. -/
  | request (store : Nat) (sent : Request)
  /-- A cause for a node. -/
  | cause (node cause : Nat)

namespace Effect

/-- The stores afterwards. -/
def services : Effect → List Service → List Service
  | .store response, services => services ++ [.new response]
  | .request i sent, services => services.modify i (·.receive sent)
  | _, services => services

/-- The nodes afterwards. -/
def heap : Effect → ErrorHeap → ErrorHeap
  | .node content, heap => heap.add content
  | .cause c e, heap => heap.setCause c e
  | _, heap => heap

/-- The request that is sent, and to which store. -/
def sends : Effect → Option (Nat × Request)
  | .request i sent => some (i, sent)
  | _ => none

/-- Whether an effect is possible in a session. New nodes and stores are made of errors that
are kept, requests go where names lead, and no node is given a cause that holds it. -/
def Possible (s : Session) : Effect → Prop
  | .nothing => True
  | .node content => ∀ m, content.wrapped? = some m → s.Keeps [] m
  | .store response => ∀ n, response.failure? = some n → s.Keeps [] n
  | .request i _ => s.Leads [] i
  | .cause c e => s.Keeps [] c ∧ s.Keeps [] e ∧ s.heap.cause? c = none ∧ ¬ s.heap.Reaches e c

/-- The store that an effect makes. -/
def Opens (s : Session) : Effect → Nat → Prop
  | .store _, i => i = s.services.length
  | _, _ => False

/-- The node that an effect makes, or the error that a store answers with. -/
def Reveals (s : Session) : Effect → Nat → Prop
  | .node _, n => n = s.heap.size
  | .request i _, n => s.failure? i = some n
  | _, _ => False

end Effect

namespace Session

/-- Whether the error of a node is kept, by itself or by a store that is led to. -/
def Root (s : Session) (loose : List Object) (n : Nat) : Prop :=
  s.Keeps loose n ∨ ∃ i, s.Leads loose i ∧ s.failure? i = some n

/-- What a step has changed that had an effect. -/
structure Change (s : Session) (effect : Effect) (s' : Session) (loose : List Object) : Prop where
  possible : effect.Possible s
  services : s'.services = effect.services s.services
  heap : s'.heap = effect.heap s.heap
  leads : ∀ i, s'.Leads loose i → s.Leads [] i ∨ effect.Opens s i
  keeps : ∀ n, s'.Keeps loose n → s.Keeps [] n ∨ effect.Reveals s n
  /-- A node that is given a cause is held by nothing but itself, and no store answers with
  it. -/
  alone : ∀ c e, effect = .cause c e →
    (∀ n, s'.Root loose n → s.heap.Reaches n c → n = c) ∧
      ∀ i, s'.Leads loose i → s.failure? i ≠ some c

variable {s s' s'' : Session} {loose loose' : List Object} {effect : Effect}

/-- What is kept for its store after a calm change was so before. -/
theorem Calm.root (h : s.Calm loose s' loose') {n : Nat} (hroot : s'.Root loose' n) :
    s.Root loose n := by
  rcases hroot with hkeeps | ⟨i, hleads, hfails⟩
  · exact .inl (h.keeps n hkeeps)
  · rw [failure?, h.services] at hfails
    exact .inr ⟨i, h.leads i hleads, hfails⟩

/-- What a store answers with stays the same. -/
theorem Change.failure?_eq (h : s.Change effect s' loose) {i : Nat} (hi : i < s.services.length) :
    s'.failure? i = s.failure? i := by
  rw [failure?, failure?, h.services]
  cases effect with
  | store response => rw [Effect.services, List.getElem?_append_left hi]
  | request j sent =>
      rw [Effect.services, List.getElem?_modify]
      cases s.services[i]? with
      | none => rfl
      | some service =>
          simp only [Option.bind_some]
          split <;> rfl
  | _ => rfl

/-- A calm change has no effect. -/
theorem Calm.change (h : s.Calm [] s' loose) : s.Change .nothing s' loose where
  possible := trivial
  services := h.services
  heap := h.heap
  leads i hi := .inl (h.leads i hi)
  keeps n hn := .inl (h.keeps n hn)
  alone := nofun

/-- What is possible after a calm change was possible before. -/
theorem Calm.possible (h : s.Calm [] s' []) (heffect : effect.Possible s') :
    effect.Possible s := by
  cases effect with
  | nothing => trivial
  | node content => exact fun m hm => h.keeps m (heffect m hm)
  | store response => exact fun n hn => h.keeps n (heffect n hn)
  | request i sent => exact h.leads i heffect
  | cause c e =>
      obtain ⟨hc, he, hcause, hfree⟩ := heffect
      rw [h.heap] at hcause hfree
      exact ⟨h.keeps c hc, h.keeps e he, hcause, hfree⟩

/-- A calm change before an effect. -/
theorem Calm.then_change (h : s.Calm [] s' []) (h' : s'.Change effect s'' loose) :
    s.Change effect s'' loose where
  possible := h.possible h'.possible
  services := h'.services.trans (h.services ▸ rfl)
  heap := h'.heap.trans (h.heap ▸ rfl)
  leads i hi := by
    refine (h'.leads i hi).imp (h.leads i) fun hopens => ?_
    cases effect <;> first | exact hopens.elim | exact hopens.trans (h.services ▸ rfl)
  keeps n hn := by
    refine (h'.keeps n hn).imp (h.keeps n) fun hreveals => ?_
    cases effect with
    | node content => exact hreveals.trans (h.heap ▸ rfl)
    | request i sent => rwa [Effect.Reveals, failure?, h.services] at hreveals
    | _ => exact hreveals.elim
  alone c e heq := by
    obtain ⟨hroots, hstores⟩ := h'.alone c e heq
    rw [h.heap] at hroots
    refine ⟨hroots, fun i hi => ?_⟩
    rw [failure?, ← h.services]
    exact hstores i hi

/-- A calm change after an effect. -/
theorem Change.then_calm (h : s.Change effect s' loose) (h' : s'.Calm loose s'' loose') :
    s.Change effect s'' loose' where
  possible := h.possible
  services := h'.services.trans h.services
  heap := h'.heap.trans h.heap
  leads i hi := h.leads i (h'.leads i hi)
  keeps n hn := h.keeps n (h'.keeps n hn)
  alone c e heq := by
    obtain ⟨hroots, hstores⟩ := h.alone c e heq
    exact ⟨fun n hn => hroots n (h'.root hn), fun i hi => hstores i (h'.leads i hi)⟩

/-- A change that leaves the names alone. -/
theorem change_of_names (hnames : s'.names = s.names) (hpossible : effect.Possible s)
    (hservices : s'.services = effect.services s.services) (hheap : s'.heap = effect.heap s.heap)
    (halone : ∀ c e, effect ≠ .cause c e) : s.Change effect s' [] where
  possible := hpossible
  services := hservices
  heap := hheap
  leads i hi := by
    obtain ⟨o, ho, hi⟩ := hi
    rw [Has, hnames] at ho
    exact .inl ⟨o, ho, hi⟩
  keeps n hn := by
    rw [Keeps, Has, hnames] at hn
    exact .inl hn
  alone c e heq := absurd heq (halone c e)

/-- An effect gives an object that leads where names lead, or to what it opens up. -/
theorem Change.give {o : Object} (h : s.Change effect s' [])
    (hleads : ∀ i, o.service? = some i → s.Leads [] i ∨ effect.Opens s i)
    (hkeeps : ∀ n, o = .error n → s.Keeps [] n ∨ effect.Reveals s n)
    (halone : ∀ c e, effect = .cause c e → o = .error c) : s.Change effect s' [o] where
  possible := h.possible
  services := h.services
  heap := h.heap
  leads i hi := by
    obtain ⟨o', ho' | ho', hi⟩ := hi
    · exact hleads i (List.mem_singleton.mp ho' ▸ hi)
    · exact h.leads i ⟨o', .inr ho', hi⟩
  keeps n hn := by
    rcases hn with hn | hn
    · exact hkeeps n (List.mem_singleton.mp hn).symm
    · exact h.keeps n (.inr hn)
  alone c e heq := by
    -- What is given is the error of `c` itself, which leads to no store.
    have ho : o = .error c := halone c e heq
    obtain ⟨hroots, hstores⟩ := h.alone c e heq
    have hloose : ∀ i, s'.Leads [o] i → s'.Leads [] i := by
      rintro i ⟨o', ho' | ho', hi⟩
      · rw [List.mem_singleton.mp ho', ho] at hi
        cases hi
      · exact ⟨o', .inr ho', hi⟩
    refine ⟨fun n hn hreach => ?_, fun i hi => hstores i (hloose i hi)⟩
    rcases hn with (hn | hn) | ⟨i, hi, hfails⟩
    · exact Object.error.inj ((List.mem_singleton.mp hn).trans ho)
    · exact hroots n (.inl (.inr hn)) hreach
    · exact hroots n (.inr ⟨i, hloose i hi, hfails⟩) hreach

end Session

/-! ### Sound sessions -/

namespace Session

/-- What holds of every session that steps lead to. -/
structure Sound (s : Session) : Prop where
  /-- Names lead to stores that are there. -/
  leads_lt : ∀ i, s.Leads [] i → i < s.services.length
  /-- Names keep errors whose nodes are there. -/
  keeps_lt : ∀ n, s.Keeps [] n → n < s.heap.size
  /-- Stores answer with errors whose nodes are there. -/
  failure_lt : ∀ i n, s.failure? i = some n → n < s.heap.size
  heap : s.heap.Sound

variable {s s' : Session} {loose : List Object} {n : Nat}

/-- What reaches the one who asked when a store gives its answer. -/
def answer? (s : Session) : Response → Option (Except Error (List Record))
  | .records found => some (.ok found)
  | .failure n => (s.heap.error? n).map .error

/-- What is kept is there. -/
theorem Sound.root_lt (hs : s.Sound) (h : s.Root [] n) : n < s.heap.size := by
  rcases h with hkeeps | ⟨i, -, hfails⟩
  · exact hs.keeps_lt n hkeeps
  · exact hs.failure_lt i n hfails

/-- The store that a name leads to is there. -/
theorem Sound.exists_service (hs : s.Sound) {i : Nat} (h : s.Leads [] i) :
    ∃ service, s.services[i]? = some service :=
  ⟨_, List.getElem?_eq_getElem (hs.leads_lt i h)⟩

/-- A store gives an answer. -/
theorem Sound.exists_answer (hs : s.Sound) {i : Nat} {service : Service}
    (h : s.services[i]? = some service) : ∃ found, s.answer? service.response = some found := by
  cases hresponse : service.response with
  | records found => exact ⟨_, rfl⟩
  | failure n =>
      have hfails : s.failure? i = some n := by
        rw [failure?, h, Option.bind_some, hresponse]
        rfl
      obtain ⟨e, he⟩ := hs.heap.exists_error (hs.failure_lt i n hfails)
      exact ⟨.error e, by rw [answer?, he, Option.map_some]⟩

/-- Calm changes keep a session sound. -/
theorem Calm.sound (h : s.Calm [] s' []) (hs : s.Sound) : s'.Sound where
  leads_lt i hi := h.services ▸ hs.leads_lt i (h.leads i hi)
  keeps_lt n hn := h.heap ▸ hs.keeps_lt n (h.keeps n hn)
  failure_lt i n hfails := by
    rw [failure?, h.services] at hfails
    exact h.heap ▸ hs.failure_lt i n hfails
  heap := h.heap ▸ hs.heap

/-- An object that leads to a store holds the error that the store answers with. -/
theorem root?_of_service? {o : Object} {i : Nat} (h : o.service? = some i) :
    s.root? o = s.failure? i := by
  cases o <;> cases h <;> rfl

/-- The errors of a session are those that are kept. -/
theorem mem_roots_iff : n ∈ s.roots ↔ s.Root [] n := by
  rw [roots, List.mem_filterMap]
  constructor
  · rintro ⟨o, ho, hroot⟩
    obtain ⟨handle, hhandle⟩ := s.names.mem_items_iff o |>.mp ho
    have hhas : s.Has [] o := .inr ⟨handle, hhandle⟩
    cases o with
    | error m =>
        cases hroot
        exact .inl hhas
    | base b => exact .inr ⟨b.service, ⟨_, hhas, rfl⟩, hroot⟩
    | query q => exact .inr ⟨q.base.service, ⟨_, hhas, rfl⟩, hroot⟩
    | _ => cases hroot
  · rintro (hkeeps | ⟨i, ⟨o, ho, hi⟩, hfails⟩)
    · rcases hkeeps with hmem | ⟨handle, hhandle⟩
      · cases hmem
      · exact ⟨_, s.names.mem_items_iff _ |>.mpr ⟨handle, hhandle⟩, rfl⟩
    · rcases ho with hmem | ⟨handle, hhandle⟩
      · cases hmem
      · refine ⟨o, s.names.mem_items_iff o |>.mpr ⟨handle, hhandle⟩, ?_⟩
        rw [root?_of_service? hi, hfails]

/-- The errors that are held beside a context are there. -/
theorem Sound.roots_lt (hs : s.Sound) {handle : Handle} {e : Nat} (he : s.error? handle = some e)
    (context : Handle) : ∀ root ∈ e :: (s.without context).roots, root < s.heap.size := by
  intro root hmem
  rcases List.mem_cons.mp hmem with rfl | hmem
  · exact hs.keeps_lt root (keeps_of_error? he)
  · exact hs.root_lt ((s.calm_without context).root (mem_roots_iff.mp hmem))

/-! ### What a change preserves -/

variable {effect : Effect}

/-- No store goes away. -/
theorem Change.services_length_le (h : s.Change effect s' loose) :
    s.services.length ≤ s'.services.length := by
  rw [h.services]
  cases effect <;> simp [Effect.services]

/-- No node goes away. -/
theorem Change.heap_size_le (h : s.Change effect s' loose) : s.heap.size ≤ s'.heap.size := by
  rw [h.heap]
  cases effect <;> simp [Effect.heap]

/-- A store that is new answers with an error that was kept before. -/
theorem Change.failure?_new (h : s.Change effect s' loose) {i : Nat} (hi : s.services.length ≤ i)
    (hfails : s'.failure? i = some n) : s.Keeps [] n := by
  have hnone : s.services[i]? = none := List.getElem?_eq_none hi
  have hpossible := h.possible
  rw [failure?, h.services] at hfails
  cases effect with
  | store response =>
      rw [Effect.services, List.getElem?_append_right hi] at hfails
      cases hplace : i - s.services.length with
      | zero =>
          rw [hplace] at hfails
          exact hpossible n hfails
      | succ k =>
          rw [hplace] at hfails
          cases hfails
  | request j sent =>
      rw [Effect.services, List.getElem?_modify, hnone] at hfails
      cases hfails
  | _ =>
      replace hfails : s.failure? i = some n := hfails
      rw [failure?, hnone] at hfails
      cases hfails

/-- **A change keeps a session sound.** -/
theorem Change.sound (h : s.Change effect s' []) (hs : s.Sound) : s'.Sound where
  leads_lt i hi := by
    rcases h.leads i hi with hleads | hopens
    · exact lt_of_lt_of_le (hs.leads_lt i hleads) h.services_length_le
    · have hservices := h.services
      cases effect with
      | store response =>
          rw [hservices, Effect.services, List.length_append]
          exact hopens ▸ Nat.lt_succ_self _
      | _ => exact hopens.elim
  keeps_lt n hn := by
    rcases h.keeps n hn with hkeeps | hreveals
    · exact lt_of_lt_of_le (hs.keeps_lt n hkeeps) h.heap_size_le
    · have hheap := h.heap
      cases effect with
      | node content =>
          rw [hheap, Effect.heap, ErrorHeap.size_add]
          exact hreveals ▸ Nat.lt_succ_self _
      | request i sent => exact hheap ▸ hs.failure_lt i n hreveals
      | _ => exact hreveals.elim
  failure_lt i n hfails := by
    refine lt_of_lt_of_le ?_ h.heap_size_le
    rcases Nat.lt_or_ge i s.services.length with hi | hi
    · rw [h.failure?_eq hi] at hfails
      exact hs.failure_lt i n hfails
    · exact hs.keeps_lt n (h.failure?_new hi hfails)
  heap := by
    have hheap := h.heap
    have hpossible := h.possible
    rw [hheap]
    cases effect with
    | node content => exact hs.heap.add fun m hm => hs.keeps_lt m (hpossible m hm)
    | cause c e =>
        obtain ⟨hc, he, hcause, hfree⟩ := hpossible
        exact hs.heap.setCause hcause (hs.keeps_lt c hc) (hs.keeps_lt e he) hfree
    | _ => exact hs.heap

/-- What is kept afterwards was kept before, unless it is new. -/
theorem Change.root (h : s.Change effect s' []) (hroot : s'.Root [] n) :
    s.Root [] n ∨ ∃ content, effect = .node content ∧ n = s.heap.size := by
  rcases hroot with hkeeps | ⟨i, hleads, hfails⟩
  · rcases h.keeps n hkeeps with hkeeps | hreveals
    · exact .inl (.inl hkeeps)
    · have hpossible := h.possible
      cases effect with
      | node content => exact .inr ⟨content, rfl, hreveals⟩
      | request i sent => exact .inl (.inr ⟨i, hpossible, hreveals⟩)
      | _ => exact hreveals.elim
  · rcases Nat.lt_or_ge i s.services.length with hi | hi
    · rw [h.failure?_eq hi] at hfails
      refine .inl (.inr ⟨i, (h.leads i hleads).resolve_right fun hopens => ?_, hfails⟩)
      cases effect <;> first | exact hopens.elim | exact absurd (hopens ▸ hi) (Nat.lt_irrefl _)
    · exact .inl (.inl (h.failure?_new hi hfails))

/-- Whether somebody holds a node: its error is kept, or is behind one that is. -/
def Holds (s : Session) (n : Nat) : Prop := ∃ root, s.Root [] root ∧ s.heap.Reaches root n

/-- What is held is there. -/
theorem Sound.holds_lt (hs : s.Sound) (h : s.Holds n) : n < s.heap.size := by
  obtain ⟨root, hroot, hreach⟩ := h
  exact hs.heap.lt_of_reaches hreach (hs.root_lt hroot)

/-- What is held after a new node was held before, unless it is that node. -/
theorem Change.holds_node {content : NodeContent} (h : s.Change (.node content) s' [])
    (hs : s.Sound) (hn : n < s.heap.size) (hholds : s'.Holds n) : s.Holds n := by
  obtain ⟨root, hroot, hreach⟩ := hholds
  rw [h.heap] at hreach
  rcases h.root hroot with hroot | ⟨-, -, rfl⟩
  · exact ⟨root, hroot, (hs.heap.reaches_add_iff (hs.root_lt hroot)).mp hreach⟩
  · rcases Relation.ReflTransGen.cases_head hreach with rfl | ⟨m, hstep, hrest⟩
    · exact absurd hn (Nat.lt_irrefl _)
    · rcases ErrorHeap.points_add_iff.mp hstep with hold | ⟨-, hwraps⟩
      · exact absurd hold.lt_size (Nat.lt_irrefl _)
      · have hm := h.possible m hwraps
        exact ⟨m, .inl hm, (hs.heap.reaches_add_iff (hs.keeps_lt m hm)).mp hrest⟩

/-- What is held after a node was given a cause was held before, and if it is not that node,
it does not hold the node. -/
theorem Change.holds_cause {c e : Nat} (h : s.Change (.cause c e) s' []) (hs : s.Sound)
    (hholds : s'.Holds n) : s.Holds n ∧ (n ≠ c → ¬ s.heap.Reaches n c) := by
  obtain ⟨root, hroot, hreach⟩ := hholds
  obtain ⟨hc, he, hcause, hfree⟩ := h.possible
  have hroot' : s.Root [] root := (h.root hroot).resolve_right nofun
  rw [h.heap] at hreach
  rcases ErrorHeap.reaches_of_setCause hcause (hs.keeps_lt c hc) hreach with hold | ⟨-, hbehind⟩
  · refine ⟨⟨root, hroot', hold⟩, fun hne hback => hne ?_⟩
    -- Whoever holds a node that holds `c` is `c`, so the node is on a cycle through `c`.
    have hrootc : root = c := (h.alone c e rfl).1 root hroot (hold.trans hback)
    exact hs.heap.eq_of_reaches hback (hrootc ▸ hold)
  · exact ⟨⟨e, .inl he, hbehind⟩, fun _ hback => hfree (hbehind.trans hback)⟩

/-- **The errors that are held stay the same**, but for one that is given a cause. -/
theorem Change.error?_eq (h : s.Change effect s' []) (hs : s.Sound) (hn : n < s.heap.size)
    (hholds : s'.Holds n) (hne : ∀ c e, effect = .cause c e → n ≠ c) :
    s.Holds n ∧ s'.heap.error? n = s.heap.error? n := by
  cases effect with
  | node content =>
      rw [h.heap]
      exact ⟨h.holds_node hs hn hholds, hs.heap.error?_add content hn⟩
  | cause c e =>
      obtain ⟨hbefore, hfree⟩ := h.holds_cause hs hholds
      rw [h.heap]
      exact ⟨hbefore, hs.heap.error?_setCause hn (hfree (hne c e rfl))⟩
  | nothing | store response | request i sent =>
      have hheap : s'.heap = s.heap := h.heap
      obtain ⟨root, hroot, hreach⟩ := hholds
      rw [hheap] at hreach ⊢
      exact ⟨⟨root, (h.root hroot).resolve_right nofun, hreach⟩, rfl⟩

end Session

end RecordQuery
