import Mathlib.Data.List.Nodup

/-!
# Intrusive doubly linked lists

The nodes of an intrusive list carry their own `next` and `prev` links, so a list is described
by two partial maps on nodes and a pair of end pointers. `Segment` follows the links through a
list of nodes between two outer neighbours, and `DoublyLinked` is a complete list. The two
edits, `DoublyLinked.push_back` and `DoublyLinked.pop_front`, are stated for any new links that
agree with the old ones away from the nodes the edit rewrites, so they apply however the links
are stored.
-/

namespace HailOS.Lib

variable {Node : Type}

/-- `Segment next prev before nodes after` says that `nodes` are linked in order in both
directions, `before` is the predecessor of the first node and `after` the successor of the
last. -/
def Segment (next prev : Node → Option Node) :
    Option Node → List Node → Option Node → Prop
  | _, [], _ => True
  | before, node :: rest, after =>
      prev node = before ∧ next node = rest.head?.or after ∧
        Segment next prev (some node) rest after

variable {next prev next' prev' : Node → Option Node} {before after : Option Node}
  {nodes rest : List Node}

/-- A segment reads only the links of its own nodes. -/
theorem Segment.congr (h : Segment next prev before nodes after)
    (hnext : ∀ n ∈ nodes, next' n = next n) (hprev : ∀ n ∈ nodes, prev' n = prev n) :
    Segment next' prev' before nodes after := by
  induction nodes generalizing before with
  | nil => trivial
  | cons node rest ih =>
      obtain ⟨hp, hn, hrest⟩ := h
      refine ⟨(hprev node (by simp)).trans hp, (hnext node (by simp)).trans hn, ?_⟩
      exact ih hrest (fun n hm => hnext n (by simp [hm])) (fun n hm => hprev n (by simp [hm]))

/-- Appending one node: the old segment now ends at it, and it closes the new one. -/
theorem Segment.snoc {node : Node} (h : Segment next prev before nodes (some node))
    (hprev : prev node = nodes.getLast?.or before) (hnext : next node = after) :
    Segment next prev before (nodes ++ [node]) after := by
  induction nodes generalizing before with
  | nil => exact ⟨by simpa using hprev, by simpa using hnext, trivial⟩
  | cons first rest ih =>
      obtain ⟨hp, hn, hrest⟩ := h
      refine ⟨hp, ?_, ih hrest ?_⟩
      · cases rest <;> simpa using hn
      · cases rest with
        | nil => simpa using hprev
        | cons second rest =>
            obtain ⟨last, hlast⟩ : ∃ last, (second :: rest).getLast? = some last :=
              ⟨_, List.getLast?_eq_some_getLast (List.cons_ne_nil second rest)⟩
            rw [List.getLast?_cons_cons, hlast] at hprev
            rw [hlast]
            exact hprev

/-- Redirecting the successor of the last node moves the end of the segment. -/
theorem Segment.redirect {after' : Option Node} (h : Segment next prev before nodes after)
    (hnodup : nodes.Nodup) (hlast : ∀ n, nodes.getLast? = some n → next' n = after')
    (hnext : ∀ n ∈ nodes, nodes.getLast? ≠ some n → next' n = next n)
    (hprev : ∀ n ∈ nodes, prev' n = prev n) :
    Segment next' prev' before nodes after' := by
  induction nodes generalizing before with
  | nil => trivial
  | cons node rest ih =>
      obtain ⟨hp, hn, hrest⟩ := h
      refine ⟨(hprev node (by simp)).trans hp, ?_, ?_⟩
      · cases rest with
        | nil => simpa using hlast node rfl
        | cons second rest =>
            have hne : (node :: second :: rest).getLast? ≠ some node := by
              rw [List.getLast?_cons_cons]
              intro hl
              exact (List.nodup_cons.mp hnodup).1 (List.mem_of_getLast? hl)
            rw [hnext node (by simp) hne, hn]
            rfl
      · cases rest with
        | nil => trivial
        | cons second rest =>
            refine ih hrest (List.nodup_cons.mp hnodup).2 ?_ ?_ ?_
            · intro n hl
              exact hlast n (by rw [List.getLast?_cons_cons]; exact hl)
            · intro n hm hl
              exact hnext n (by simp [hm]) (by rw [List.getLast?_cons_cons]; exact hl)
            · exact fun n hm => hprev n (by simp [hm])

/-- The predecessor of a node of a segment is the outer neighbour or another node of it. -/
theorem Segment.prev_cases (h : Segment next prev before nodes after) {node : Node}
    (hmem : node ∈ nodes) : prev node = before ∨ ∃ n ∈ nodes, prev node = some n := by
  induction nodes generalizing before with
  | nil => cases hmem
  | cons first rest ih =>
      obtain ⟨hp, _, hrest⟩ := h
      rcases List.mem_cons.mp hmem with rfl | hm
      · exact .inl hp
      · rcases ih hrest hm with hb | ⟨n, hn, hb⟩
        · exact .inr ⟨first, by simp, hb⟩
        · exact .inr ⟨n, by simp [hn], hb⟩

/-- The successor of a node of a segment is the outer neighbour or another node of it. -/
theorem Segment.next_cases (h : Segment next prev before nodes after) {node : Node}
    (hmem : node ∈ nodes) : next node = after ∨ ∃ n ∈ nodes, next node = some n := by
  induction nodes generalizing before with
  | nil => cases hmem
  | cons first rest ih =>
      obtain ⟨_, hn, hrest⟩ := h
      rcases List.mem_cons.mp hmem with rfl | hm
      · cases rest with
        | nil => exact .inl (by simpa using hn)
        | cons second rest => exact .inr ⟨second, by simp, by simpa using hn⟩
      · rcases ih hrest hm with ha | ⟨n, hmn, ha⟩
        · exact .inl ha
        · exact .inr ⟨n, by simp [hmn], ha⟩

/-- Inside a segment whose outer neighbours lie outside it, `prev` is the inverse of `next`. -/
theorem Segment.next_iff_prev (h : Segment next prev before nodes after) (hnodup : nodes.Nodup)
    (hbefore : ∀ n ∈ nodes, before ≠ some n) (hafter : ∀ n ∈ nodes, after ≠ some n)
    {x y : Node} (hx : x ∈ nodes) (hy : y ∈ nodes) : next x = some y ↔ prev y = some x := by
  induction nodes generalizing before with
  | nil => cases hx
  | cons first rest ih =>
      obtain ⟨hp, hn, hrest⟩ := h
      obtain ⟨hfirst, hrestNodup⟩ := List.nodup_cons.mp hnodup
      -- No link inside the rest leads back to the first node.
      have hback : ∀ n ∈ rest, next n ≠ some first := by
        intro n hm hne
        rcases hrest.next_cases hm with ha | ⟨z, hz, hnz⟩
        · exact hafter first (by simp) (ha.symm.trans hne)
        · exact hfirst (Option.some.inj (hnz.symm.trans hne) ▸ hz)
      rcases List.mem_cons.mp hx with rfl | hxr
      · rcases List.mem_cons.mp hy with rfl | hyr
        · constructor
          · intro hself
            cases rest with
            | nil => exact absurd (by simpa [hn] using hself) (hafter y (by simp))
            | cons second rest => simp_all
          · intro hself
            exact absurd (hp.symm.trans hself) (hbefore y (by simp))
        · cases rest with
          | nil => cases hyr
          | cons second rest =>
              obtain ⟨hp2, _, hrest2⟩ := hrest
              rw [hn, show (second :: rest).head?.or after = some second from rfl]
              rcases List.mem_cons.mp hyr with rfl | hyTail
              · simp [hp2]
              · constructor
                · intro heq
                  exact absurd (Option.some.inj heq ▸ hyTail) (List.nodup_cons.mp hrestNodup).1
                · intro hpy
                  rcases hrest2.prev_cases hyTail with hb | ⟨z, hz, hb⟩
                  · have heq : second = x := Option.some.inj (hb.symm.trans hpy)
                    exact absurd (by simp [heq]) hfirst
                  · have heq : z = x := Option.some.inj (hb.symm.trans hpy)
                    exact absurd (by simp [← heq, hz]) hfirst
      · rcases List.mem_cons.mp hy with rfl | hyr
        · constructor
          · exact fun hne => absurd hne (hback x hxr)
          · exact fun hpy => absurd (hp.symm.trans hpy) (hbefore x (by simp [hxr]))
        · refine ih hrest hrestNodup ?_ (fun n hm => hafter n (by simp [hm])) hxr hyr
          intro n hm heq
          exact hfirst (Option.some.inj heq ▸ hm)

/-- A complete doubly linked list of distinct `nodes` between the end pointers `head` and
`tail`. -/
structure DoublyLinked (next prev : Node → Option Node) (head tail : Option Node)
    (nodes : List Node) : Prop where
  nodup : nodes.Nodup
  head_eq : head = nodes.head?
  tail_eq : tail = nodes.getLast?
  links : Segment next prev none nodes none

variable {head tail : Option Node}

/-- The empty list, whatever the links are. -/
theorem DoublyLinked.empty (next prev : Node → Option Node) :
    DoublyLinked next prev none none [] :=
  ⟨List.nodup_nil, rfl, rfl, trivial⟩

/-- A list reads only the links of its own nodes. -/
theorem DoublyLinked.congr (h : DoublyLinked next prev head tail nodes)
    (hnext : ∀ n ∈ nodes, next' n = next n) (hprev : ∀ n ∈ nodes, prev' n = prev n) :
    DoublyLinked next' prev' head tail nodes :=
  ⟨h.nodup, h.head_eq, h.tail_eq, h.links.congr hnext hprev⟩

/-- Linking a new node behind the last one appends it. -/
theorem DoublyLinked.push_back {head' : Option Node} {node : Node}
    (h : DoublyLinked next prev head tail nodes) (hnew : node ∉ nodes)
    (hhead : head' = head.or (some node)) (hnextNew : next' node = none)
    (hprevNew : prev' node = tail)
    (hlast : ∀ n, tail = some n → next' n = some node)
    (hnext : ∀ n ∈ nodes, tail ≠ some n → next' n = next n)
    (hprev : ∀ n ∈ nodes, prev' n = prev n) :
    DoublyLinked next' prev' head' (some node) (nodes ++ [node]) := by
  refine ⟨?_, ?_, ?_, ?_⟩
  · simpa [List.concat_eq_append] using h.nodup.concat hnew
  · cases nodes <;> simp [hhead, h.head_eq]
  · simp
  · refine Segment.snoc (h.links.redirect h.nodup ?_ ?_ hprev) ?_ hnextNew
    · exact fun n hn => hlast n (h.tail_eq.trans hn)
    · exact fun n hm hn => hnext n hm (fun ht => hn (h.tail_eq.symm.trans ht))
    · simpa [h.tail_eq] using hprevNew

/-- Unlinking the first node leaves the rest. -/
theorem DoublyLinked.pop_front {node : Node}
    (h : DoublyLinked next prev head tail (node :: rest))
    (hfirst : ∀ n, rest.head? = some n → prev' n = none)
    (hprev : ∀ n ∈ rest, rest.head? ≠ some n → prev' n = prev n)
    (hnext : ∀ n ∈ rest, next' n = next n) :
    DoublyLinked next' prev' rest.head? rest.getLast? rest := by
  refine ⟨(List.nodup_cons.mp h.nodup).2, rfl, rfl, ?_⟩
  obtain ⟨_, _, hlinks⟩ := h.links
  have hnodup := (List.nodup_cons.mp h.nodup).2
  cases rest with
  | nil => trivial
  | cons second rest =>
      obtain ⟨_, hn, hrest⟩ := hlinks
      refine ⟨hfirst second rfl, (hnext second (by simp)).trans hn, hrest.congr ?_ ?_⟩
      · exact fun n hm => hnext n (by simp [hm])
      · intro n hm
        refine hprev n (by simp [hm]) ?_
        intro heq
        cases heq
        exact (List.nodup_cons.mp hnodup).1 hm

/-- The successor of the first node is the first node of the rest. -/
theorem DoublyLinked.next_head {node : Node}
    (h : DoublyLinked next prev head tail (node :: rest)) : next node = rest.head? := by
  simpa using h.links.2.1

/-- The first node has no predecessor. -/
theorem DoublyLinked.prev_head (h : DoublyLinked next prev head tail nodes) {node : Node}
    (hnode : head = some node) : prev node = none := by
  cases nodes with
  | nil => simp [h.head_eq] at hnode
  | cons first rest =>
      have hfirst : first = node := by simpa [h.head_eq] using hnode
      exact hfirst ▸ h.links.1

/-- The last node of a segment has the outer neighbour as its successor. -/
theorem Segment.next_last (h : Segment next prev before nodes after) {node : Node}
    (hnode : nodes.getLast? = some node) : next node = after := by
  induction nodes generalizing before with
  | nil => simp at hnode
  | cons first rest ih =>
      obtain ⟨_, hn, hrest⟩ := h
      cases rest with
      | nil =>
          have hfirst : first = node := by simpa using hnode
          simpa [hfirst] using hn
      | cons second rest => exact ih hrest (by rwa [List.getLast?_cons_cons] at hnode)

/-- The last node has no successor. -/
theorem DoublyLinked.next_tail (h : DoublyLinked next prev head tail nodes) {node : Node}
    (hnode : tail = some node) : next node = none :=
  h.links.next_last (h.tail_eq.symm.trans hnode)

/-- `prev` is the inverse of `next` on the nodes of a list. -/
theorem DoublyLinked.next_iff_prev (h : DoublyLinked next prev head tail nodes) {x y : Node}
    (hx : x ∈ nodes) (hy : y ∈ nodes) : next x = some y ↔ prev y = some x :=
  h.links.next_iff_prev h.nodup (by simp) (by simp) hx hy

/-- The two end pointers are null together, exactly for the empty list. -/
theorem DoublyLinked.head_none_iff (h : DoublyLinked next prev head tail nodes) :
    head = none ↔ tail = none := by
  rw [h.head_eq, h.tail_eq, List.head?_eq_none_iff, List.getLast?_eq_none_iff]

/-- Two segments over the same links that start at the same node are the same. -/
theorem Segment.unique {before' : Option Node} {other : List Node}
    (h : Segment next prev before nodes none) (hother : Segment next prev before' other none)
    (hhead : nodes.head? = other.head?) : nodes = other := by
  induction nodes generalizing before before' other with
  | nil => simpa [eq_comm] using hhead
  | cons node rest ih =>
      cases other with
      | nil => simp at hhead
      | cons node' rest' =>
          have heq : node = node' := by simpa using hhead
          subst heq
          obtain ⟨_, hn, hrest⟩ := h
          obtain ⟨_, hn', hrest'⟩ := hother
          have hnext : rest.head? = rest'.head? := by simpa using hn.symm.trans hn'
          rw [ih hrest hrest' hnext]

/-- The links and end pointers determine the list of nodes. -/
theorem DoublyLinked.unique {other : List Node} (h : DoublyLinked next prev head tail nodes)
    (hother : DoublyLinked next prev head tail other) : nodes = other :=
  h.links.unique hother.links (h.head_eq.symm.trans hother.head_eq)

end HailOS.Lib
