/-
Detected statements and their excision.

A statement is detected by the nodes at fixed distances from its logger's name;
the node behind the name and the one behind the level are not looked at.  Its
excision looks at both, so the two agree on the statement's end wherever neither
of these nodes ends a statement.
-/
import LogCorpus.Occurrence.Detection
import LogCorpus.Proofs.Statement.Remainder
import LogCorpus.Proofs.Training.Projection
import Mathlib.Data.Option.Basic

namespace LogCorpus

/-- No node that ends a statement is a level. -/
theorem severityOfLevel?_of_endsStatement {node : Node} (hends : node.endsStatement) :
    severityOfLevel? node.contents = none := by
  rw [Node.endsStatement, isTerminator, List.contains_iff_mem] at hends
  simp only [terminators, List.mem_cons, List.not_mem_nil, or_false] at hends
  rcases hends with hname | hsign
  · rw [hname]
    decide +kernel
  · rw [hsign]
    decide +kernel

theorem mem_statementsIn {graphPath : String} {nodes : List Node}
    {occurrence : Occurrence} :
    occurrence ∈ statementsIn graphPath nodes ↔
      ∃ place node, nodes[place]? = some node ∧
        statementAt? graphPath node (nodes.drop (place + 1)) = some occurrence := by
  induction nodes with
  | nil => simp [statementsIn]
  | cons head tail ih =>
      rw [statementsIn, List.mem_append, Option.mem_toList, ih]
      constructor
      · rintro (hhead | ⟨place, node, hnode, hfound⟩)
        · exact ⟨0, head, rfl, hhead⟩
        · exact ⟨place + 1, node, hnode, hfound⟩
      · rintro ⟨place, node, hnode, hfound⟩
        cases place with
        | zero =>
            injection hnode with hnode
            exact .inl (hnode ▸ hfound)
        | succ place => exact .inr ⟨place, node, hnode, hfound⟩

theorem statementAt?_eq_some_iff {graphPath : String} {node : Node}
    {after : List Node} {occurrence : Occurrence} :
    statementAt? graphPath node after = some occurrence ↔
      occurrence.graphPath = graphPath ∧
        (node.contents ∈ loggerNames ∧ occurrence.root = some node.id ∧
          occurrence.line = some node.startLine) ∧
        (∃ level, after[1]? = some level ∧
          severityOfLevel? level.contents = some occurrence.severity) ∧
        messageOf? (after.drop 3) = some occurrence.message ∧
        (utf8 occurrence.message).length ≤ maxMessageBytes := by
  simp only [statementAt?, List.contains_iff_mem, Option.bind_eq_bind,
    Option.bind_eq_some_iff, Option.pure_def, Option.guard_eq_some']
  constructor
  · rintro ⟨_, hlogger, level, hlevel, severity, hseverity, message, hmessage,
      _, hlength, heq⟩
    rw [← Option.some.inj heq]
    exact ⟨rfl, ⟨hlogger, rfl, rfl⟩, ⟨level, hlevel, hseverity⟩, hmessage, hlength⟩
  · obtain ⟨path, severity, message, root, line⟩ := occurrence
    rintro ⟨rfl, ⟨hlogger, rfl, rfl⟩, ⟨level, hlevel, hseverity⟩, hmessage, hlength⟩
    exact ⟨(), hlogger, level, hlevel, severity, hseverity, message, hmessage,
      (), hlength, rfl⟩

namespace Graph

/-- The text of the nodes from `first` up to, not including, `stop`. -/
def textBetween (graph : Graph) (first stop : Nat) : String :=
  String.join (((graph.nodes.take stop).drop first).map fun node =>
    sourceText node.contents)

/-- A statement is detected with its logger's name at `place` and the message
ended by the node at `stop`. -/
structure Detects (graph : Graph) (place stop : Nat) (occurrence : Occurrence) :
    Prop where
  logger : ∃ node, graph.nodes[place]? = some node ∧
    node.contents ∈ loggerNames ∧ occurrence.root = some node.id ∧
    occurrence.line = some node.startLine
  level : ∃ node, graph.nodes[place + 2]? = some node ∧
    severityOfLevel? node.contents = some occurrence.severity
  ends : graph.IsFirstTerminator (place + 4) stop
  message_eq : occurrence.message = graph.textBetween (place + 4) (stop - 1)
  message_le : (utf8 occurrence.message).length ≤ maxMessageBytes

theorem messageOf?_drop_eq_some_iff {graph : Graph} {start : Nat} {message : String} :
    messageOf? (graph.nodes.drop start) = some message ↔
      ∃ stop, graph.IsFirstTerminator start stop ∧
        message = graph.textBetween start (stop - 1) := by
  have htext (offset : Nat) :
      graph.textBetween start (start + offset - 1) =
        String.join (((graph.nodes.drop start).take (offset - 1)).map fun node =>
          sourceText node.contents) := by
    rw [textBetween, List.drop_take]
    congr 3
    omega
  rw [messageOf?, Option.map_eq_some_iff]
  constructor
  · rintro ⟨⟨offset, last⟩, hfirst, rfl⟩
    exact ⟨_, isFirstTerminator_of_firstTerminator? hfirst, (htext offset).symm⟩
  · rintro ⟨stop, hstop, rfl⟩
    obtain ⟨node, hnode, hends⟩ := (graph.endsAt_iff stop).mp hstop.endsAt_stop
    have hdrop : (graph.nodes.drop start)[stop - start]? = some node := by
      rw [List.getElem?_drop, Nat.add_sub_cancel' hstop.start_le, hnode]
    obtain ⟨⟨offset, last⟩, hfirst⟩ := exists_firstTerminator?_eq_some hdrop hends
    have hsame := (isFirstTerminator_of_firstTerminator? hfirst).unique hstop
    exact ⟨_, hfirst, by rw [← hsame, htext]⟩

/-- The statements of a graph are those that are detected at some place. -/
theorem mem_statements_iff {graph : Graph} {graphPath : String}
    {occurrence : Occurrence} :
    occurrence ∈ graph.statements graphPath ↔
      occurrence.graphPath = graphPath ∧
        ∃ place stop, graph.Detects place stop occurrence := by
  rw [statements, mem_statementsIn]
  constructor
  · rintro ⟨place, node, hnode, hfound⟩
    obtain ⟨hpath, ⟨hname, hroot, hline⟩, ⟨level, hlevel, hseverity⟩, hmessage,
      hlength⟩ := statementAt?_eq_some_iff.mp hfound
    rw [List.getElem?_drop] at hlevel
    rw [List.drop_drop, messageOf?_drop_eq_some_iff] at hmessage
    obtain ⟨stop, hends, htext⟩ := hmessage
    exact ⟨hpath, place, stop, ⟨node, hnode, hname, hroot, hline⟩,
      ⟨level, hlevel, hseverity⟩, hends, htext, hlength⟩
  · rintro ⟨hpath, place, stop, hdetects⟩
    obtain ⟨node, hnode, hname, hroot, hline⟩ := hdetects.logger
    obtain ⟨level, hlevel, hseverity⟩ := hdetects.level
    refine ⟨place, node, hnode, statementAt?_eq_some_iff.mpr ⟨hpath,
      ⟨hname, hroot, hline⟩, ⟨level, ?_, hseverity⟩, ?_, hdetects.message_le⟩⟩
    · rw [List.getElem?_drop, hlevel]
    · rw [List.drop_drop, messageOf?_drop_eq_some_iff]
      exact ⟨stop, hdetects.ends, hdetects.message_eq⟩

section

variable {graph : Graph} {place stop : Nat} {occurrence : Occurrence}
  (hdetects : graph.Detects place stop occurrence)
include hdetects

/-- The level does not end a statement. -/
theorem Detects.not_endsAt_level : ¬ graph.endsAt (place + 2) := by
  obtain ⟨level, hlevel, hseverity⟩ := hdetects.level
  rw [endsAt_iff]
  rintro ⟨node, hnode, hends⟩
  rw [hlevel] at hnode
  injection hnode with hnode
  rw [hnode, severityOfLevel?_of_endsStatement hends] at hseverity
  cases hseverity

/-- The first node behind the logger's name that ends a statement: one of the
two that the detection does not look at, or the one that ends the message. -/
theorem Detects.eq_of_isFirstTerminator {last : Nat}
    (hlast : graph.IsFirstTerminator (place + 1) last) :
    last =
      if graph.endsAt (place + 1) then place + 1
      else if graph.endsAt (place + 3) then place + 3
      else stop := by
  apply hlast.unique
  have hends := hdetects.ends
  have hlevel := hdetects.not_endsAt_level
  by_cases hname : graph.endsAt (place + 1)
  · rw [if_pos hname]
    exact ⟨Nat.le_refl _, hname, fun other hstart hother => by omega⟩
  · rw [if_neg hname]
    by_cases harguments : graph.endsAt (place + 3)
    · rw [if_pos harguments]
      refine ⟨by omega, harguments, fun other hstart hother => ?_⟩
      rcases (by omega : other = place + 1 ∨ other = place + 2) with rfl | rfl
      · exact hname
      · exact hlevel
    · rw [if_neg harguments]
      refine ⟨by have := hends.start_le; omega, hends.endsAt_stop, ?_⟩
      intro other hstart hother
      by_cases hinner : place + 4 ≤ other
      · exact hends.inner other hinner hother
      · rcases (by omega : other = place + 1 ∨ other = place + 2 ∨ other = place + 3)
          with rfl | rfl | rfl
        · exact hname
        · exact hlevel
        · exact harguments

/-- A detected statement is located at its logger's name. -/
theorem Detects.exists_locate_eq_ok (hgraph : graph.WellFormed) :
    ∃ root span, occurrence.root = some root ∧ graph.locate root = .ok span ∧
      span.base = place := by
  obtain ⟨node, hnode, _, hroot, _⟩ := hdetects.logger
  have hposition : graph.position? node.id = some place :=
    hgraph.position?_eq_some_iff.mpr ⟨node, hnode, rfl⟩
  have hstart := hdetects.ends.start_le
  obtain ⟨span, hlocate⟩ := Graph.exists_locate_eq_ok hposition (by omega)
    hdetects.ends.endsAt_stop
  refine ⟨node.id, span, hroot, hlocate, ?_⟩
  have hbase := (isStatement_of_locate hlocate).position?_eq
  rw [hposition] at hbase
  exact (Option.some.inj hbase).symm

end

/-- A detected statement can be excised.  Its span starts at the logger's name
and ends at the terminator that ended the message, unless the node behind the
name or the one behind the level is a terminator, at which it ends then.  In all
other cases neither the level nor a node of the message is left. -/
theorem WellFormed.excise_of_detected {graph : Graph} (hgraph : graph.WellFormed)
    {graphPath : String} {occurrence : Occurrence}
    (hfound : occurrence ∈ graph.statements graphPath) :
    ∃ root place stop span excision,
      occurrence.root = some root ∧
        graph.Detects place stop occurrence ∧
        graph.locate root = .ok span ∧ span.base = place ∧
        (span.stop =
          if graph.endsAt (place + 1) then place + 2
          else if graph.endsAt (place + 3) then place + 4
          else stop + 1) ∧
        graph.excise root = .ok excision ∧ excision.span = span ∧
        (¬ graph.endsAt (place + 1) → ¬ graph.endsAt (place + 3) →
          ∀ other node, place < other → other ≤ stop →
            graph.nodes[other]? = some node → node.id ∉ excision.graph.ids) ∧
        ∀ target, ∃ training, excision.graph.project target = .ok training ∧
          training.nodeLabels =
            (graph.nodes.take place).map (fun node => node.sanitize.contents) ++
              "" :: (graph.nodes.drop span.stop).map
                fun node => node.sanitize.contents := by
  obtain ⟨_, place, stop, hdetects⟩ := mem_statements_iff.mp hfound
  obtain ⟨root, span, hroot, hlocate, hplace⟩ := hdetects.exists_locate_eq_ok hgraph
  obtain ⟨excision, hexcise, hspan, hafter⟩ := exists_excise_eq_ok hlocate
  have hstatement := isStatement_of_locate hlocate
  have hstop : span.stop =
      if graph.endsAt (place + 1) then place + 2
      else if graph.endsAt (place + 3) then place + 4
      else stop + 1 := by
    have hlast := hstatement.isFirstTerminator
    rw [hplace] at hlast
    have hlast := hdetects.eq_of_isFirstTerminator hlast
    have hbase := hstatement.base_add_two_le
    split_ifs at hlast ⊢ <;> omega
  refine ⟨root, place, stop, span, excision, hroot, hdetects, hlocate, hplace, hstop,
    hexcise, hspan, ?_, ?_⟩
  · intro hname harguments other node hother hle hnode
    rw [if_neg hname, if_neg harguments] at hstop
    rw [hafter]
    exact hgraph.not_mem_ids_excised (by omega) (by omega) hnode
  · intro target
    obtain ⟨training, hproject, hlabels, _⟩ :=
      (hgraph.of_excise hexcise).exists_project_eq_ok target
    refine ⟨training, hproject, ?_⟩
    rw [hlabels, hafter, hgraph.contents_excised hstatement, hplace]

/-- The level of a call between two other nodes goes with the call. -/
theorem excise_of_detected_call :
    let word (id : UInt64) (contents : String) : Node :=
      ⟨id, .token, contents, 3, 3, 0, 1⟩
    let graph : Graph :=
      ⟨"A.java", [word 1 "x", word 2 "log", word 3 "DOT", word 4 "info",
        word 5 "LPAREN", word 6 "m", word 7 "RPAREN", word 8 "SEMI", word 9 "y"],
        [⟨1, 3, .nextToken⟩, ⟨2, 9, .astChild⟩]⟩
    let occurrence : Occurrence := ⟨"A.proto", .info, "m", some 2, some 3⟩
    graph.WellFormed ∧ occurrence ∈ graph.statements "A.proto" ∧
      ∃ excision, graph.excise 2 = .ok excision ∧ 4 ∉ excision.graph.ids := by
  intro word graph occurrence
  have hgraph : graph.WellFormed :=
    ⟨by decide +kernel, by decide +kernel, by decide +kernel⟩
  have hfound : occurrence ∈ graph.statements "A.proto" := by
    decide +kernel
  obtain ⟨root, place, stop, _, excision, hroot, hdetects, _, _, _, hexcise, _, hgone,
    _⟩ := hgraph.excise_of_detected hfound
  obtain ⟨node, hnode, _, hid, _⟩ := hdetects.logger
  injection hroot with hroot
  injection hid with hid
  have hname : graph.nodes[1]? = some (word 2 "log") := rfl
  have hplace : place = 1 := hgraph.place_eq hnode hname hid.symm
  subst hroot hplace
  have hstop := hdetects.ends.start_le
  have hlevel : 4 ∉ excision.graph.ids :=
    hgone (by decide +kernel) (by decide +kernel) 3 (word 4 "info") (by omega)
      (by omega) rfl
  exact ⟨hgraph, hfound, excision, hexcise, hlevel⟩

/-- A terminator right behind the logger's name ends the excision before the
level, which the detection still takes for that of a statement: it is left in the
graph and in the training example. -/
theorem level_left_behind_terminator :
    let word (id : UInt64) (contents : String) : Node :=
      ⟨id, .token, contents, 3, 3, 0, 1⟩
    let graph : Graph :=
      ⟨"A.java", [word 1 "log", word 2 ";", word 3 "info", word 4 "x", word 5 "y",
        word 6 ";"], []⟩
    let occurrence : Occurrence := ⟨"A.proto", .info, "", some 1, some 3⟩
    let span : Span := ⟨1, 0, 2, 3, 1⟩
    let excision : Excision :=
      ⟨span, 0, 0, 0, ⟨"A.java", [⟨1, .log, "", 3, 3, 0, 1⟩, word 3 "info",
        word 4 "x", word 5 "y", word 6 ";"], []⟩⟩
    let training : TrainingExample :=
      ⟨["", "info", "x", "y", ";"], [], [], ["info"], 0⟩
    graph.WellFormed ∧ graph.statements "A.proto" = [occurrence] ∧
      graph.IsFirstTerminator 4 5 ∧
      graph.locate 1 = .ok span ∧ span.stop ≠ 5 + 1 ∧
      graph.excise 1 = .ok excision ∧
      excision.graph.project (.severity .info) = .ok training := by
  intro word graph occurrence span excision training
  refine ⟨⟨by decide +kernel, by decide +kernel, by decide +kernel⟩,
    by decide +kernel, ⟨by decide, by decide +kernel, ?_⟩, by decide +kernel,
    by decide, by decide +kernel, by decide +kernel⟩
  intro place hstart hplace
  rw [(by omega : place = 4)]
  decide +kernel

end Graph

end LogCorpus
