/-
Located statements.

A located span starts at its root, reaches to a node that ends a statement and
has no other such node between the two.
-/
import LogCorpus.Statement.Span

namespace LogCorpus

theorem firstTerminator?_eq_some {nodes : List Node} {place : Nat} {last : Node}
    (hfirst : firstTerminator? nodes = some (place, last)) :
    nodes[place]? = some last ∧ last.endsStatement ∧
      ∀ earlier < place, ∀ node, nodes[earlier]? = some node →
        ¬ node.endsStatement := by
  induction nodes generalizing place with
  | nil => simp [firstTerminator?] at hfirst
  | cons head tail ih =>
      rw [firstTerminator?] at hfirst
      by_cases hhead : head.endsStatement
      · rw [if_pos hhead] at hfirst
        injection hfirst with heq
        injection heq with hplace hlast
        subst hplace hlast
        exact ⟨rfl, hhead, fun earlier hearlier => absurd hearlier (by omega)⟩
      · rw [if_neg hhead, Option.map_eq_some_iff] at hfirst
        obtain ⟨⟨before, node⟩, htail, heq⟩ := hfirst
        injection heq with hplace hlast
        subst hplace hlast
        obtain ⟨hnode, hends, hinner⟩ := ih htail
        refine ⟨hnode, hends, fun earlier hearlier other hother => ?_⟩
        cases earlier with
        | zero =>
            injection hother with hother
            exact hother ▸ hhead
        | succ earlier =>
            exact hinner earlier (by omega) other hother

/-- A node that ends a statement is not passed over. -/
theorem exists_firstTerminator?_eq_some {nodes : List Node} {place : Nat}
    {node : Node} (hnode : nodes[place]? = some node) (hends : node.endsStatement) :
    ∃ found, firstTerminator? nodes = some found := by
  induction nodes generalizing place with
  | nil => simp at hnode
  | cons head tail ih =>
      rw [firstTerminator?]
      by_cases hhead : head.endsStatement
      · rw [if_pos hhead]
        exact ⟨_, rfl⟩
      · rw [if_neg hhead]
        cases place with
        | zero =>
            injection hnode with hnode
            exact absurd (hnode ▸ hends) hhead
        | succ place =>
            obtain ⟨found, hfound⟩ := ih hnode
            rw [hfound]
            exact ⟨_, rfl⟩

namespace Graph

/-- Does the node at a place end a statement? -/
def endsAt (graph : Graph) (place : Nat) : Bool :=
  graph.nodes[place]?.any Node.endsStatement

theorem endsAt_iff (graph : Graph) (place : Nat) :
    graph.endsAt place ↔
      ∃ node, graph.nodes[place]? = some node ∧ node.endsStatement := by
  rw [endsAt, Option.any_eq_true]

/-- Of the nodes from a place on, the first that ends a statement is at
`stop`. -/
structure IsFirstTerminator (graph : Graph) (start stop : Nat) : Prop where
  start_le : start ≤ stop
  endsAt_stop : graph.endsAt stop
  inner : ∀ place, start ≤ place → place < stop → ¬ graph.endsAt place

theorem IsFirstTerminator.unique {graph : Graph} {start stop other : Nat}
    (hstop : graph.IsFirstTerminator start stop)
    (hother : graph.IsFirstTerminator start other) : stop = other := by
  rcases Nat.lt_trichotomy stop other with hlt | heq | hgt
  · exact absurd hstop.endsAt_stop (hother.inner stop hstop.start_le hlt)
  · exact heq
  · exact absurd hother.endsAt_stop (hstop.inner other hother.start_le hgt)

theorem isFirstTerminator_of_firstTerminator? {graph : Graph} {start offset : Nat}
    {last : Node} (hfirst : firstTerminator? (graph.nodes.drop start) =
      some (offset, last)) :
    graph.IsFirstTerminator start (start + offset) := by
  obtain ⟨hlast, hends, hinner⟩ := firstTerminator?_eq_some hfirst
  rw [List.getElem?_drop] at hlast
  refine ⟨by omega, (graph.endsAt_iff _).mpr ⟨last, hlast, hends⟩, ?_⟩
  intro place hstart hplace hendsAt
  obtain ⟨node, hnode, hnodeEnds⟩ := (graph.endsAt_iff place).mp hendsAt
  refine hinner (place - start) (by omega) node ?_ hnodeEnds
  rw [List.getElem?_drop, Nat.add_sub_cancel' hstart, hnode]

/-- A span covers the statement with this root. -/
structure IsStatement (graph : Graph) (root : UInt64) (span : Span) : Prop where
  root_eq : span.root = root
  position?_eq : graph.position? root = some span.base
  base_add_two_le : span.base + 2 ≤ span.stop
  last : ∃ node, graph.nodes[span.stop - 1]? = some node ∧ node.endsStatement ∧
    span.endLine = node.endLine ∧ span.endPosition = node.endPosition
  inner : ∀ place node, span.base < place → place + 1 < span.stop →
    graph.nodes[place]? = some node → ¬ node.endsStatement

theorem isStatement_of_locate {graph : Graph} {root : UInt64} {span : Span}
    (hlocate : graph.locate root = .ok span) : graph.IsStatement root span := by
  rw [locate] at hlocate
  cases hposition : graph.position? root with
  | none =>
      rw [hposition] at hlocate
      cases hlocate
  | some base =>
      rw [hposition] at hlocate
      cases hfirst : firstTerminator? (graph.nodes.drop (base + 1)) with
      | none =>
          simp only [hfirst] at hlocate
          cases hlocate
      | some found =>
          obtain ⟨offset, last⟩ := found
          simp only [hfirst] at hlocate
          injection hlocate with hspan
          subst hspan
          obtain ⟨hlast, hends, hinner⟩ := firstTerminator?_eq_some hfirst
          rw [List.getElem?_drop] at hlast
          constructor
          · rfl
          · exact hposition
          · simp only
            omega
          · refine ⟨last, ?_, hends, rfl, rfl⟩
            rw [← hlast]
            congr 1
            simp only
            omega
          · intro place node hbase hstop hnode
            simp only at hbase hstop
            apply hinner (place - (base + 1)) (by omega) node
            rw [List.getElem?_drop, ← hnode]
            congr 1
            omega

theorem IsStatement.stop_le {graph : Graph} {root : UInt64} {span : Span}
    (hspan : graph.IsStatement root span) : span.stop ≤ graph.nodes.length := by
  obtain ⟨node, hnode, _⟩ := hspan.last
  have hlast := (List.getElem?_eq_some_iff.mp hnode).1
  have hbase := hspan.base_add_two_le
  omega

theorem IsStatement.isFirstTerminator {graph : Graph} {root : UInt64} {span : Span}
    (hspan : graph.IsStatement root span) :
    graph.IsFirstTerminator (span.base + 1) (span.stop - 1) := by
  obtain ⟨last, hlast, hends, _⟩ := hspan.last
  have hbase := hspan.base_add_two_le
  refine ⟨by omega, (graph.endsAt_iff _).mpr ⟨last, hlast, hends⟩, ?_⟩
  intro place hstart hplace hendsAt
  obtain ⟨node, hnode, hnodeEnds⟩ := (graph.endsAt_iff place).mp hendsAt
  exact hspan.inner place node (by omega) (by omega) hnode hnodeEnds

/-- A statement is located where some node after its root ends a statement. -/
theorem exists_locate_eq_ok {graph : Graph} {root : UInt64} {base stop : Nat}
    (hroot : graph.position? root = some base) (hbase : base < stop)
    (hstop : graph.endsAt stop) : ∃ span, graph.locate root = .ok span := by
  obtain ⟨node, hnode, hends⟩ := (graph.endsAt_iff stop).mp hstop
  have hdrop : (graph.nodes.drop (base + 1))[stop - (base + 1)]? = some node := by
    rw [List.getElem?_drop, Nat.add_sub_cancel' hbase, hnode]
  obtain ⟨⟨offset, last⟩, hfirst⟩ := exists_firstTerminator?_eq_some hdrop hends
  simp only [locate, hroot, hfirst]
  exact ⟨_, rfl⟩

end Graph

end LogCorpus
