/-
Where statements are located, and where not.

A root has no statement if it is not in the graph or if no node behind it ends a
statement; otherwise the statement that is located is the shortest one.  An excision
fails as the location does, before anything is changed: once it has started to change
the graph, the root that it looks up again is always there.
-/
import LogCorpus.Proofs.Statement.Contraction

namespace LogCorpus

namespace Graph

theorem IsStatement.unique {graph : Graph} {root : UInt64} {span other : Span}
    (hspan : graph.IsStatement root span) (hother : graph.IsStatement root other) :
    span = other := by
  have hroot := hspan.root_eq.trans hother.root_eq.symm
  have hbase : span.base = other.base :=
    Option.some.inj (hspan.position?_eq.symm.trans hother.position?_eq)
  have hlast : span.stop - 1 = other.stop - 1 :=
    hspan.isFirstTerminator.unique (hbase ▸ hother.isFirstTerminator)
  have hspanLe := hspan.base_add_two_le
  have hotherLe := hother.base_add_two_le
  have hstop : span.stop = other.stop := by omega
  obtain ⟨node, hnode, _, hline, hposition⟩ := hspan.last
  obtain ⟨twin, htwin, _, htwinLine, htwinPosition⟩ := hother.last
  have hsame : node = twin :=
    Option.some.inj (hnode.symm.trans ((congrArg _ hlast).trans htwin))
  subst hsame
  cases span
  cases other
  simp_all

/-- What is located is the shortest statement of the root. -/
theorem locate_eq_ok_iff (graph : Graph) (root : UInt64) (span : Span) :
    graph.locate root = .ok span ↔ graph.IsStatement root span := by
  refine ⟨isStatement_of_locate, fun hspan => ?_⟩
  have hbase := hspan.base_add_two_le
  obtain ⟨found, hfound⟩ := exists_locate_eq_ok hspan.position?_eq
    (by omega : span.base < span.stop - 1) hspan.isFirstTerminator.endsAt_stop
  rw [hfound, (isStatement_of_locate hfound).unique hspan]

/-- Nothing is located where there is no root, or nothing behind it that ends a
statement. -/
theorem locate_eq_error_iff (graph : Graph) (root : UInt64) (fault : Fault) :
    graph.locate root = .error fault ↔
      graph.position? root = none ∧ fault = .rootNotFound root ∨
        ∃ base, graph.position? root = some base ∧
          (∀ place, base < place → ¬ graph.endsAt place) ∧
          fault = .terminatorNotFound root := by
  cases hposition : graph.position? root with
  | none =>
      have hlocate : graph.locate root = .error (.rootNotFound root) := by
        simp only [locate, hposition]
      rw [hlocate]
      constructor
      · intro hfault
        exact Or.inl ⟨rfl, (Except.error.inj hfault).symm⟩
      · rintro (⟨_, rfl⟩ | ⟨base, hbase, _⟩)
        · rfl
        · cases hbase
  | some base =>
      cases hfirst : firstTerminator? (graph.nodes.drop (base + 1)) with
      | none =>
          have hlocate : graph.locate root = .error (.terminatorNotFound root) := by
            simp only [locate, hposition, hfirst]
          have hnone (place : Nat) (hplace : base < place) : ¬ graph.endsAt place := by
            intro hends
            obtain ⟨span, hspan⟩ := exists_locate_eq_ok hposition hplace hends
            rw [hlocate] at hspan
            cases hspan
          rw [hlocate]
          constructor
          · intro hfault
            exact Or.inr ⟨base, rfl, hnone, (Except.error.inj hfault).symm⟩
          · rintro (⟨habsent, _⟩ | ⟨_, _, _, rfl⟩)
            · cases habsent
            · rfl
      | some found =>
          have hends := isFirstTerminator_of_firstTerminator? hfirst
          simp only [locate, hposition, hfirst]
          constructor
          · intro hfault
            cases hfault
          · rintro (⟨habsent, _⟩ | ⟨_, hbase, hnone, _⟩)
            · cases habsent
            · rw [← Option.some.inj hbase] at hnone
              exact absurd hends.endsAt_stop (hnone _ hends.start_le)

end Graph

namespace ArenaGraph

theorem run_clearStatement_of_error {graph : ArenaGraph} {root : UInt64} {fault : Fault}
    (hlocate : graph.locate root = .error fault) :
    (clearStatement root).run graph = (.error fault, graph) := by
  have hlook : (Editing.look fun graph => graph.locate root).run graph =
      (.error fault, graph) := by
    rw [run_look, hlocate]
  rw [clearStatement, run_bind_of_error hlook]

section

variable {graph : ArenaGraph} (hgraph : graph.Consistent) (root : UInt64)
include hgraph

theorem Consistent.endsAt_toGraph_iff (place : Nat) :
    graph.toGraph.endsAt place ↔
      ∃ node, graph.nodeAt? place = some node ∧ node.endsStatement := by
  rw [Graph.endsAt_iff, hgraph.nodeAt?_eq]
  rfl

theorem Consistent.position?_eq_none_iff :
    graph.position? root = none ↔ graph.contains root = false := by
  rw [← Bool.not_eq_true, contains_iff_mem, ← hgraph.mem_order_iff, position?,
    List.findIdx?_eq_none_iff]
  simp only [beq_eq_false_iff_ne, ne_eq, List.forall_mem_ne']

theorem Consistent.locate_eq_error_iff (fault : Fault) :
    graph.locate root = .error fault ↔
      graph.contains root = false ∧ fault = .rootNotFound root ∨
        ∃ base, graph.position? root = some base ∧
          (∀ place, base < place → ∀ node, graph.nodeAt? place = some node →
            ¬ node.endsStatement) ∧
          fault = .terminatorNotFound root := by
  rw [← hgraph.locate_toGraph, Graph.locate_eq_error_iff, hgraph.position?_toGraph,
    hgraph.position?_eq_none_iff]
  simp only [hgraph.endsAt_toGraph_iff, not_exists, not_and]

/-- The shortest statement of a root, read off the working graph. -/
theorem Consistent.isStatement_toGraph_iff (span : Span) :
    graph.toGraph.IsStatement root span ↔
      span.root = root ∧ graph.position? root = some span.base ∧
        span.base + 2 ≤ span.stop ∧ span.stop ≤ graph.nodeCount ∧
        (∃ last, graph.nodeAt? (span.stop - 1) = some last ∧ last.endsStatement ∧
          span.endLine = last.endLine ∧ span.endPosition = last.endPosition) ∧
        ∀ place node, span.base < place → place + 1 < span.stop →
          graph.nodeAt? place = some node → ¬ node.endsStatement := by
  simp only [← hgraph.position?_toGraph, hgraph.nodeAt?_eq, ← hgraph.length_nodes]
  constructor
  · intro hspan
    exact ⟨hspan.root_eq, hspan.position?_eq, hspan.base_add_two_le, hspan.stop_le,
      hspan.last, hspan.inner⟩
  · rintro ⟨hroot, hbase, hstop, _, hlast, hinner⟩
    exact ⟨hroot, hbase, hstop, hlast, hinner⟩

/-- An excision succeeds with the span that is located, and fails, without a change, as
the location does. -/
theorem Consistent.run_excise_eq_ok_iff (span : Span) :
    (∃ surgery after, (excise root).run graph = (.ok surgery, after) ∧
        surgery.span = span) ↔
      graph.locate root = .ok span := by
  constructor
  · rintro ⟨surgery, after, hrun, rfl⟩
    obtain ⟨span, hlocate, _, hsurgery, _⟩ := hgraph.exists_of_run_excise_eq_ok hrun
    rw [hlocate, hsurgery]
    rfl
  · intro hlocate
    have hspan := Graph.isStatement_of_locate ((hgraph.locate_toGraph root).trans hlocate)
    have hroot := hspan.root_eq
    subst hroot
    exact ⟨_, _, hgraph.run_excise hspan hlocate, rfl⟩

theorem Consistent.run_excise_eq_error_iff (fault : Fault) (after : ArenaGraph) :
    (excise root).run graph = (.error fault, after) ↔
      graph.locate root = .error fault ∧ after = graph := by
  cases hlocate : graph.locate root with
  | ok span =>
      obtain ⟨surgery, left, hrun, _⟩ := (hgraph.run_excise_eq_ok_iff root span).mpr hlocate
      rw [hrun]
      exact iff_of_false nofun nofun
  | error cause =>
      rw [excise_eq_bind, run_bind_of_error (run_clearStatement_of_error hlocate)]
      constructor
      · intro hrun
        obtain ⟨hcause, hafter⟩ := Prod.mk.inj hrun
        rw [Except.error.inj hcause]
        exact ⟨rfl, hafter.symm⟩
      · rintro ⟨hcause, rfl⟩
        rw [Except.error.inj hcause]

/-- Once a statement is cleared, its root is still there to be sealed. -/
theorem Consistent.root_of_run_clearStatement {cleared : Span × Nat × Nat}
    {middle : ArenaGraph} (hrun : (clearStatement root).run graph = (.ok cleared, middle)) :
    cleared.1.root = root ∧ middle.contains root = true ∧
      ∃ sealed, (sealRoot cleared.1).run middle = (.ok (), sealed) := by
  cases hlocate : graph.locate root with
  | error fault =>
      rw [run_clearStatement_of_error hlocate] at hrun
      cases hrun
  | ok span =>
      have hspan := Graph.isStatement_of_locate ((hgraph.locate_toGraph root).trans hlocate)
      have hroot := hspan.root_eq
      subst hroot
      rw [run_clearStatement hlocate] at hrun
      cases hrun
      have hmem := hgraph.root_mem_cleared hspan
      exact ⟨rfl, (contains_iff_mem _ _).mpr hmem, _, run_sealRoot hmem⟩

/-- A root has no statement if it is not in the graph, and none either if no node behind
it ends a statement.  In all other cases the shortest statement is located: it starts at
its root and reaches to the first node behind the root that ends a statement.  An excision
succeeds with the span that is located, and it fails as the location does, without a
change.  It never fails after the graph has begun to change: when the root is looked up
again, it is there. -/
theorem Consistent.excise_as_located :
    (graph.locate root = .error (.rootNotFound root) ↔ graph.contains root = false) ∧
      (graph.locate root = .error (.terminatorNotFound root) ↔
        ∃ base, graph.position? root = some base ∧
          ∀ place, base < place → ∀ node, graph.nodeAt? place = some node →
            ¬ node.endsStatement) ∧
      (∀ fault, graph.locate root = .error fault →
        fault = .rootNotFound root ∨ fault = .terminatorNotFound root) ∧
      (∀ span, graph.locate root = .ok span ↔
        span.root = root ∧ graph.position? root = some span.base ∧
          span.base + 2 ≤ span.stop ∧ span.stop ≤ graph.nodeCount ∧
          (∃ last, graph.nodeAt? (span.stop - 1) = some last ∧ last.endsStatement ∧
            span.endLine = last.endLine ∧ span.endPosition = last.endPosition) ∧
          ∀ place node, span.base < place → place + 1 < span.stop →
            graph.nodeAt? place = some node → ¬ node.endsStatement) ∧
      (∀ span, (∃ surgery after, (excise root).run graph = (.ok surgery, after) ∧
          surgery.span = span) ↔
        graph.locate root = .ok span) ∧
      (∀ fault after, (excise root).run graph = (.error fault, after) ↔
        graph.locate root = .error fault ∧ after = graph) ∧
      excise root = clearStatement root >>= finishExcision ∧
      ∀ cleared middle, (clearStatement root).run graph = (.ok cleared, middle) →
        cleared.1.root = root ∧ middle.contains root = true ∧
          ∃ sealed, (sealRoot cleared.1).run middle = (.ok (), sealed) := by
  refine ⟨?_, ?_, fun fault hfault => ?_, fun span => ?_,
    hgraph.run_excise_eq_ok_iff root, hgraph.run_excise_eq_error_iff root,
    excise_eq_bind root, fun _ _ => hgraph.root_of_run_clearStatement root⟩
  · simp [hgraph.locate_eq_error_iff]
  · simp [hgraph.locate_eq_error_iff]
  · rcases (hgraph.locate_eq_error_iff root fault).mp hfault with
      ⟨_, hroot⟩ | ⟨_, _, _, hterminator⟩
    · exact Or.inl hroot
    · exact Or.inr hterminator
  · rw [← hgraph.locate_toGraph, Graph.locate_eq_ok_iff, hgraph.isStatement_toGraph_iff]

end

/-- A root that ends a statement itself, one with nothing behind it that does, and an id
that is no node. -/
theorem excise_as_located_of_semicolons :
    let word (id : UInt64) (contents : String) : Node :=
      ⟨id, .token, contents, 3, 3, 0, 1⟩
    let text : List Node := [word 4 "y", word 1 ";", word 2 "x", word 3 "SEMI"]
    let graph : ArenaGraph :=
      ⟨"A.java", .ofList (text.map fun node => (node.id, node)), [4, 1, 2, 3],
        [⟨1, 2, .nextToken⟩, ⟨3, 4, .nextToken⟩]⟩
    graph.Consistent ∧ graph.locate 1 = .ok ⟨1, 1, 4, 3, 1⟩ ∧
      (∃ surgery after, (excise 1).run graph = (.ok surgery, after) ∧
        surgery.span = ⟨1, 1, 4, 3, 1⟩) ∧
      (excise 3).run graph = (.error (.terminatorNotFound 3), graph) ∧
      (excise 9).run graph = (.error (.rootNotFound 9), graph) := by
  intro word text graph
  have hparts : ofParts "A.java" text graph.edges = .ok graph := by decide +kernel
  have hgraph := consistent_of_ofParts hparts
  have hlocate : graph.locate 1 = .ok ⟨1, 1, 4, 3, 1⟩ := by decide +kernel
  obtain ⟨_, _, _, _, hsucceeds, _⟩ := hgraph.excise_as_located 1
  obtain ⟨_, _, _, _, _, hterminator, _⟩ := hgraph.excise_as_located 3
  obtain ⟨habsent, _, _, _, _, hroot, _⟩ := hgraph.excise_as_located 9
  exact ⟨hgraph, hlocate, (hsucceeds _).mpr hlocate,
    (hterminator _ _).mpr ⟨by decide +kernel, rfl⟩,
    (hroot _ _).mpr ⟨habsent.mpr (by decide +kernel), rfl⟩⟩

end ArenaGraph

end LogCorpus
