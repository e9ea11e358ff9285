/-
What a drawn graph shows.

A graph is drawn by statements, one on each line: its nodes with their contents, then
its edges, then a frame for every sentinel.  Contents hold no line's end once they are
escaped, and they can be read back from their quotes.  A line starts with an id, and
what follows the id is different for the three kinds of statements.  So the lines are
settled by the text and the statements by their lines, whatever the contents imitate.
-/
import LogCorpus.Graph.Dot
import LogCorpus.Proofs.Occurrence.Numbering
import LogCorpus.Proofs.Statement.Sentinel
import LogCorpus.Proofs.Training.Lines

namespace LogCorpus

/-! ### Labels -/

/-- The text of an escaped label. -/
def unescapeLabel : List Char → List Char
  | '\\' :: 'n' :: rest => '\n' :: unescapeLabel rest
  | '\\' :: c :: rest => c :: unescapeLabel rest
  | c :: rest => c :: unescapeLabel rest
  | [] => []

theorem unescapeLabel_append (c : Char) (rest : List Char) :
    unescapeLabel (escapeLabelChar c ++ rest) = c :: unescapeLabel rest := by
  by_cases hquote : c = '"'
  · subst hquote
    rfl
  by_cases hslash : c = '\\'
  · subst hslash
    rfl
  by_cases hnewline : c = '\n'
  · subst hnewline
    rfl
  rw [escapeLabelChar, if_neg hquote, if_neg hslash, if_neg hnewline,
    List.singleton_append, unescapeLabel]
  · simp [hslash]
  · simp [hslash]

theorem unescapeLabel_escapeLabel (text : String) :
    unescapeLabel (escapeLabel text).toList = text.toList := by
  rw [escapeLabel, String.toList_ofList]
  induction text.toList with
  | nil => rfl
  | cons c rest ih => rw [List.flatMap_cons, unescapeLabel_append, ih]

theorem escapeLabel_injective : Function.Injective escapeLabel := by
  intro text other heq
  have htext := unescapeLabel_escapeLabel text
  rw [heq, unescapeLabel_escapeLabel] at htext
  exact (String.toList_inj.mp htext).symm

theorem newline_not_mem_escapeLabel (text : String) :
    '\n' ∉ (escapeLabel text).toList := by
  have hchar (c : Char) : '\n' ∉ escapeLabelChar c := by
    rw [escapeLabelChar]
    repeat' split
    all_goals simp_all [eq_comm]
  rw [escapeLabel, String.toList_ofList, List.mem_flatMap]
  rintro ⟨c, _, hmem⟩
  exact hchar c hmem

theorem EdgeKind.newline_not_mem_name (kind : EdgeKind) : '\n' ∉ kind.name.toList := by
  cases kind <;> decide +kernel

/-! ### Ids -/

/-- A number ends at the first blank. -/
theorem toDigits_blank_inj {number count : Nat} {rest others : List Char}
    (heq : Nat.toDigits 10 number ++ ' ' :: rest =
      Nat.toDigits 10 count ++ ' ' :: others) :
    number = count ∧ rest = others := by
  have hblank (value : Nat) := not_mem_toDigits (c := ' ') (by decide) value
  have hdigits := congrArg (List.takeWhile (· ≠ ' ')) heq
  rw [takeWhile_ne_append (hblank number) (.inr rfl),
    takeWhile_ne_append (hblank count) (.inr rfl)] at hdigits
  have hrest := congrArg (List.dropWhile (· ≠ ' ')) heq
  rw [dropWhile_ne_append (hblank number) (.inr rfl),
    dropWhile_ne_append (hblank count) (.inr rfl)] at hrest
  exact ⟨eq_of_toDigits_eq hdigits, (List.cons.inj hrest).2⟩

/-! ### Statements -/

/-- A line of a drawn graph, as it is meant. -/
inductive DotStatement where
  | node (id : UInt64) (contents : String)
  | edge (edge : Edge)
  | frame (id : UInt64)
deriving Repr, DecidableEq

namespace DotStatement

/-- The id that the line starts with. -/
def leader : DotStatement → UInt64
  | node id _ => id
  | edge link => link.source
  | frame id => id

/-- The line behind its first blank. -/
def body : DotStatement → String
  | node _ contents => s!"[ label=\"{escapeLabel contents}\" ];"
  | edge link => s!"-> {link.target} [ label=\"{link.kind.name}\" ];"
  | frame _ => "[shape=Msquare];"

def line (statement : DotStatement) : String :=
  s!"{statement.leader} {statement.body}"

theorem toList_line (statement : DotStatement) :
    statement.line.toList =
      Nat.toDigits 10 statement.leader.toNat ++ ' ' :: statement.body.toList := by
  simp [line, toString, Nat.repr]

theorem toList_body_edge (link : Edge) :
    (edge link).body.toList = '-' :: '>' :: ' ' :: (Nat.toDigits 10 link.target.toNat ++
      ' ' :: s!"[ label=\"{link.kind.name}\" ];".toList) := by
  simp [body, toString, Nat.repr]

/-- The two characters behind the blank, which tell what kind of statement it is. -/
def mark : DotStatement → List Char
  | node _ _ => ['[', ' ']
  | edge _ => ['-', '>']
  | frame _ => ['[', 's']

theorem take_body (statement : DotStatement) :
    statement.body.toList.take 2 = statement.mark := by
  cases statement <;> simp [body, mark, toString]

theorem contents_inj {contents text : String} {id other : UInt64}
    (heq : (node id contents).body = (node other text).body) : contents = text := by
  simp only [body, toString, String.append_right_inj, String.append_left_inj] at heq
  exact escapeLabel_injective heq

theorem ends_inj {link other : Edge} (heq : (edge link).body = (edge other).body) :
    link.target = other.target ∧ link.kind = other.kind := by
  have hbody := congrArg String.toList heq
  rw [toList_body_edge, toList_body_edge] at hbody
  simp only [List.cons.injEq, true_and] at hbody
  obtain ⟨htarget, hrest⟩ := toDigits_blank_inj hbody
  have hname : link.kind.name = other.kind.name := by
    simpa only [toString, String.toList_inj, String.append_right_inj,
      String.append_left_inj] using hrest
  have hkind : some link.kind = some other.kind := by
    rw [← EdgeKind.ofName?_name, hname, EdgeKind.ofName?_name]
  exact ⟨UInt64.toNat_inj.mp htarget, Option.some_inj.mp hkind⟩

theorem eq_of_body_eq {statement other : DotStatement}
    (hleader : statement.leader = other.leader) (hbody : statement.body = other.body) :
    statement = other := by
  have hmark : statement.mark = other.mark := by
    rw [← take_body, hbody, take_body]
  cases statement with
  | node id contents =>
      cases other with
      | node id' text => exact congrArg₂ node hleader (contents_inj hbody)
      | edge | frame => simp [mark] at hmark
  | edge link =>
      cases other with
      | edge other =>
          have hsource : link.source = other.source := hleader
          obtain ⟨htarget, hkind⟩ := ends_inj hbody
          cases link
          cases other
          rw [edge.injEq, Edge.mk.injEq]
          exact ⟨hsource, htarget, hkind⟩
      | node | frame => simp [mark] at hmark
  | frame id =>
      cases other with
      | frame id' => exact congrArg frame hleader
      | node | edge => simp [mark] at hmark

theorem line_injective : Function.Injective line := by
  intro statement other heq
  have hline := congrArg String.toList heq
  rw [toList_line, toList_line] at hline
  obtain ⟨hleader, hbody⟩ := toDigits_blank_inj hline
  exact eq_of_body_eq (UInt64.toNat_inj.mp hleader) (String.toList_inj.mp hbody)

theorem newline_not_mem_line (statement : DotStatement) :
    '\n' ∉ statement.line.toList := by
  have hdigits := not_mem_toDigits (c := '\n') (by decide)
  have hbody : '\n' ∉ statement.body.toList := by
    cases statement with
    | node id contents => simp [body, toString, newline_not_mem_escapeLabel]
    | edge link =>
        rw [toList_body_edge]
        simp [toString, hdigits, EdgeKind.newline_not_mem_name]
    | frame id => simp [body]
  rw [toList_line]
  simp [hdigits, hbody]

/-- The node of a statement that shows one. -/
def node? : DotStatement → Option (UInt64 × String)
  | node id contents => some (id, contents)
  | edge _ | frame _ => none

/-- The edge of a statement that shows one. -/
def edge? : DotStatement → Option Edge
  | edge link => some link
  | node _ _ | frame _ => none

/-- The id of a statement that frames a node. -/
def frame? : DotStatement → Option UInt64
  | frame id => some id
  | node _ _ | edge _ => none

end DotStatement

theorem Node.dotLine_eq (node : Node) :
    node.dotLine = (DotStatement.node node.id node.contents).line ++ "\n" := by
  apply String.toList_inj.mp
  simp [Node.dotLine, DotStatement.line, DotStatement.leader, DotStatement.body, toString]

theorem Edge.dotLine_eq (edge : Edge) :
    edge.dotLine = (DotStatement.edge edge).line ++ "\n" := by
  apply String.toList_inj.mp
  simp [Edge.dotLine, DotStatement.line, DotStatement.leader, DotStatement.body, toString]

theorem Node.frameLine_eq (node : Node) :
    node.frameLine = (DotStatement.frame node.id).line ++ "\n" := by
  apply String.toList_inj.mp
  simp [Node.frameLine, DotStatement.line, DotStatement.leader, DotStatement.body, toString]

/-! ### Graphs -/

namespace Graph

/-- The ids of the sentinels, in node order. -/
def sentinelIds (graph : Graph) : List UInt64 :=
  (graph.nodes.filter Node.isSentinel).map Node.id

/-- The nodes as they are drawn: their ids and contents, in node order. -/
def labels (graph : Graph) : List (UInt64 × String) :=
  graph.nodes.map fun node => (node.id, node.contents)

/-- What is drawn for a graph, line by line. -/
def dotStatements (graph : Graph) : List DotStatement :=
  graph.labels.map (fun label => .node label.1 label.2) ++ graph.edges.map .edge ++
    graph.sentinelIds.map .frame

theorem length_dotStatements (graph : Graph) :
    graph.dotStatements.length =
      graph.nodeCount + graph.edgeCount + graph.sentinelCount := by
  simp [dotStatements, labels, sentinelIds, nodeCount, edgeCount, sentinelCount,
    List.countP_eq_length_filter, Nat.add_assoc]

theorem dotLines_eq (graph : Graph) :
    graph.dotLines =
      ("digraph G \x7b" :: graph.dotStatements.map DotStatement.line ++ ["\x7d"]).map
        (· ++ "\n") := by
  have hsentinel : (fun node : Node => decide (node.kind = .log)) = Node.isSentinel := rfl
  rw [dotLines, funext Node.dotLine_eq, funext Edge.dotLine_eq, funext Node.frameLine_eq,
    hsentinel]
  simp [dotStatements, labels, sentinelIds, Function.comp_def]

/-- The lines of a drawn graph are those of its statements, between a first and a last
one. -/
theorem textLines?_toDot (graph : Graph) :
    textLines? graph.toDot =
      some ("digraph G \x7b" :: graph.dotStatements.map DotStatement.line ++ ["\x7d"]) := by
  rw [toDot, dotLines_eq]
  apply textLines?_join
  intro line hline
  simp only [List.mem_append, List.mem_cons, List.mem_map, List.not_mem_nil, or_false] at hline
  rcases hline with (rfl | ⟨statement, _, rfl⟩) | rfl
  · decide +kernel
  · exact statement.newline_not_mem_line
  · decide +kernel

theorem toDot_eq_iff (graph other : Graph) :
    graph.toDot = other.toDot ↔ graph.dotStatements = other.dotStatements := by
  constructor
  · intro heq
    have hlines := graph.textLines?_toDot
    rw [heq, other.textLines?_toDot] at hlines
    simp only [Option.some_inj, List.cons_append, List.cons.injEq, true_and,
      List.append_cancel_right_eq] at hlines
    exact (List.map_injective_iff.mpr DotStatement.line_injective hlines).symm
  · intro heq
    rw [toDot, toDot, dotLines_eq, dotLines_eq, heq]

/-- The three parts of a drawing can be told apart. -/
theorem dotStatements_eq_iff (graph other : Graph) :
    graph.dotStatements = other.dotStatements ↔
      graph.labels = other.labels ∧ graph.edges = other.edges ∧
        graph.sentinelIds = other.sentinelIds := by
  have hnodes (graph : Graph) :
      graph.dotStatements.filterMap DotStatement.node? = graph.labels := by
    simp [dotStatements, List.filterMap_map, Function.comp_def, DotStatement.node?]
  have hedges (graph : Graph) :
      graph.dotStatements.filterMap DotStatement.edge? = graph.edges := by
    simp [dotStatements, List.filterMap_map, Function.comp_def, DotStatement.edge?]
  have hframes (graph : Graph) :
      graph.dotStatements.filterMap DotStatement.frame? = graph.sentinelIds := by
    simp [dotStatements, List.filterMap_map, Function.comp_def, DotStatement.frame?]
  constructor
  · intro heq
    rw [← hnodes, ← hedges, ← hframes, heq]
    exact ⟨hnodes other, hedges other, hframes other⟩
  · rintro ⟨hlabels, hedges, hsentinels⟩
    rw [dotStatements, hlabels, hedges, hsentinels, dotStatements]

theorem map_fst_labels (graph : Graph) : graph.labels.map Prod.fst = graph.ids := by
  rw [labels, List.map_map]
  rfl

/-- Where ids are distinct, the set of the sentinels settles their order. -/
theorem WellFormed.sentinelIds_eq {graph : Graph} (hgraph : graph.WellFormed) :
    graph.sentinelIds = graph.ids.filter (· ∈ graph.sentinelIds) := by
  have hmem : ∀ node ∈ graph.nodes,
      node.isSentinel = decide (node.id ∈ graph.sentinelIds) := by
    intro node hnode
    rw [Bool.eq_iff_iff, decide_eq_true_iff, sentinelIds, List.mem_map]
    constructor
    · intro hsentinel
      exact ⟨node, List.mem_filter.mpr ⟨hnode, hsentinel⟩, rfl⟩
    · rintro ⟨other, hother, hid⟩
      obtain ⟨hother, hsentinel⟩ := List.mem_filter.mp hother
      rwa [← List.inj_on_of_nodup_map hgraph.nodup_ids hother hnode hid]
  rw [ids, List.filter_map, sentinelIds]
  exact congrArg (List.map Node.id) (List.filter_congr hmem)

/-- Do two graphs show the same?  They have the same ids with the same contents in the
same order, the same edges in the same order, and their sentinels are the same nodes. -/
structure LooksLike (graph other : Graph) : Prop where
  labels : graph.labels = other.labels
  edges : graph.edges = other.edges
  sentinels : ∀ id, id ∈ graph.sentinelIds ↔ id ∈ other.sentinelIds

theorem WellFormed.sentinelIds_eq_of_looksLike {graph other : Graph}
    (hgraph : graph.WellFormed) (hother : other.WellFormed)
    (hlooks : graph.LooksLike other) : graph.sentinelIds = other.sentinelIds := by
  have hids : graph.ids = other.ids := by
    rw [← map_fst_labels, ← map_fst_labels, hlooks.labels]
  rw [hgraph.sentinelIds_eq, hother.sentinelIds_eq, hids]
  simp only [hlooks.sentinels]

/-- A drawn graph has a line for each node, each edge and each sentinel, and two more,
and every line is ended.  Two graphs are drawn alike exactly if they show the same,
whatever their contents are. -/
theorem WellFormed.toDot_eq_iff_looksLike {graph : Graph} (hgraph : graph.WellFormed) :
    (∃ lines, textLines? graph.toDot = some lines ∧
        lines.length = graph.nodeCount + graph.edgeCount + graph.sentinelCount + 2) ∧
      ∀ other, other.WellFormed →
        (graph.toDot = other.toDot ↔ graph.LooksLike other) := by
  refine ⟨⟨_, graph.textLines?_toDot, ?_⟩, fun other hother => ?_⟩
  · rw [List.length_append, List.length_cons, List.length_map, graph.length_dotStatements]
    rfl
  · rw [toDot_eq_iff, dotStatements_eq_iff]
    constructor
    · rintro ⟨hlabels, hedges, hsentinels⟩
      exact ⟨hlabels, hedges, fun id => by rw [hsentinels]⟩
    · intro hlooks
      exact ⟨hlooks.labels, hlooks.edges,
        hgraph.sentinelIds_eq_of_looksLike hother hlooks⟩

/-- Contents that imitate a frame: the graph is drawn on five lines, and not like the
graph that has the frame. -/
theorem toDot_ne_of_imitation :
    let word (id : UInt64) (kind : NodeKind) (contents : String) : Node :=
      ⟨id, kind, contents, 0, 0, 0, 0⟩
    let graph : Graph :=
      ⟨"A.java", [word 1 .token "\" ];\n2 [shape=Msquare];\n\\", word 2 .token ""],
        [⟨1, 2, .nextToken⟩]⟩
    let framed : Graph :=
      ⟨"A.java", [word 1 .token "", word 2 .log ""], [⟨1, 2, .nextToken⟩]⟩
    graph.WellFormed ∧ framed.WellFormed ∧
      (∃ lines, textLines? graph.toDot = some lines ∧ lines.length = 5) ∧
      graph.toDot ≠ framed.toDot := by
  intro word graph framed
  have hgraph : graph.WellFormed :=
    ⟨by decide +kernel, by decide +kernel, by decide +kernel⟩
  have hframed : framed.WellFormed :=
    ⟨by decide +kernel, by decide +kernel, by decide +kernel⟩
  obtain ⟨⟨lines, hlines, hlength⟩, hdrawn⟩ := hgraph.toDot_eq_iff_looksLike
  refine ⟨hgraph, hframed, ⟨lines, hlines, hlength⟩, fun heq => ?_⟩
  exact absurd ((hdrawn framed hframed).mp heq).labels (by decide +kernel)

end Graph

end LogCorpus
