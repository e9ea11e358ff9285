/-
Detection of logging calls.

A call has its nodes at the places where the detection looks for them, and the first
terminator that the detection comes to is the one that ends the call.  So each call is
detected at its logger's name, once, unless its message has more bytes than a message
may have.
-/
import LogCorpus.Proofs.Occurrence.Detection

namespace LogCorpus

/-- A logging call: a logger's name, a dot, a level, and arguments in parentheses in
front of a terminator.  No argument ends a statement. -/
structure Call where
  logger : Node
  dot : Node
  level : Node
  severity : Severity
  opening : Node
  arguments : List Node
  closing : Node
  terminator : Node
  logger_mem : logger.contents ∈ loggerNames
  dot_eq : dot.contents = "DOT"
  level_eq : severityOfLevel? level.contents = some severity
  opening_eq : opening.contents = "LPAREN"
  arguments_end : ∀ node ∈ arguments, node.endsStatement = false
  closing_eq : closing.contents = "RPAREN"
  terminator_ends : terminator.endsStatement = true

namespace Call

/-- The nodes behind the opening parenthesis. -/
def body (call : Call) : List Node :=
  call.arguments ++ [call.closing, call.terminator]

/-- The nodes of a call, in their order. -/
def nodes (call : Call) : List Node :=
  call.logger :: call.dot :: call.level :: call.opening :: call.body

/-- The source text of the arguments. -/
def message (call : Call) : String :=
  String.join (call.arguments.map fun node => sourceText node.contents)

/-- What is to be reported of a call. -/
def occurrence (call : Call) (graphPath : String) : Occurrence :=
  ⟨graphPath, call.severity, call.message, some call.logger.id,
    some call.logger.startLine⟩

theorem closing_end (call : Call) : call.closing.endsStatement = false := by
  rw [Node.endsStatement, call.closing_eq]
  decide +kernel

end Call

/-- Nodes that end no statement are passed over. -/
theorem firstTerminator?_append {front : List Node}
    (hfront : ∀ node ∈ front, node.endsStatement = false) {last : Node}
    (hlast : last.endsStatement = true) (rest : List Node) :
    firstTerminator? (front ++ last :: rest) = some (front.length, last) := by
  induction front with
  | nil => rw [List.nil_append, firstTerminator?, if_pos hlast, List.length_nil]
  | cons head tail ih =>
      have hhead := hfront head List.mem_cons_self
      rw [List.cons_append, firstTerminator?, hhead, if_neg Bool.false_ne_true,
        ih fun node hnode => hfront node (List.mem_cons_of_mem head hnode)]
      rfl

/-- The message of a call is read up to its closing parenthesis. -/
theorem messageOf?_body (call : Call) (rest : List Node) :
    messageOf? (call.body ++ rest) = some call.message := by
  have hfront : ∀ node ∈ call.arguments ++ [call.closing], node.endsStatement = false := by
    intro node hnode
    rcases List.mem_append.mp hnode with harguments | hclosing
    · exact call.arguments_end node harguments
    · rw [List.mem_singleton.mp hclosing, call.closing_end]
  have hbody : call.body ++ rest =
      (call.arguments ++ [call.closing]) ++ call.terminator :: rest := by
    simp [Call.body]
  have hfirst := firstTerminator?_append hfront call.terminator_ends rest
  rw [← hbody] at hfirst
  have htake : (call.body ++ rest).take call.arguments.length = call.arguments := by
    rw [Call.body, List.append_assoc, List.take_left]
  rw [messageOf?, hfirst, Option.map_some]
  simp only [List.length_append, List.length_singleton, Nat.add_sub_cancel, htake,
    Call.message]

/-- A call is detected at its logger's name if its message is not too long. -/
theorem statementAt?_call (graphPath : String) (call : Call) (rest : List Node) :
    statementAt? graphPath call.logger (call.nodes.tail ++ rest) =
      if (utf8 call.message).length ≤ maxMessageBytes then
        some (call.occurrence graphPath)
      else none := by
  have hmessage : messageOf? ((call.nodes.tail ++ rest).drop 3) = some call.message :=
    messageOf?_body call rest
  have hlevel : (call.nodes.tail ++ rest)[1]? = some call.level := rfl
  have hlogger : loggerNames.contains call.logger.contents := by
    rw [List.contains_iff_mem]
    exact call.logger_mem
  rw [statementAt?, guard_eq_some hlogger, hlevel, hmessage]
  simp only [Option.bind_eq_bind, Option.bind_some, call.level_eq]
  by_cases hlength : (utf8 call.message).length ≤ maxMessageBytes
  · rw [if_pos hlength, guard_eq_some hlength]
    rfl
  · rw [if_neg hlength, guard, if_neg hlength]
    rfl

/-- What is detected at a node has the id of the node. -/
theorem root_of_statementAt?_eq_some {graphPath : String} {node : Node}
    {after : List Node} {occurrence : Occurrence}
    (hfound : statementAt? graphPath node after = some occurrence) :
    occurrence.root = some node.id :=
  (statementAt?_eq_some_iff.mp hfound).2.1.2.1

/-- The roots of the statements are ids of the nodes, in their order. -/
theorem roots_statementsIn_sublist (graphPath : String) (nodes : List Node) :
    ((statementsIn graphPath nodes).map Occurrence.root).Sublist
      (nodes.map fun node => some node.id) := by
  induction nodes with
  | nil => exact List.Sublist.refl _
  | cons head tail ih =>
      rw [statementsIn, List.map_append, List.map_cons]
      cases hfound : statementAt? graphPath head tail with
      | none => exact ih.cons _
      | some occurrence =>
          rw [Option.toList_some, List.map_singleton, List.singleton_append,
            root_of_statementAt?_eq_some hfound]
          exact ih.cons_cons _

/-- Where no id comes twice, the statements whose root is a node are those detected at
that node. -/
theorem filter_statementsIn {graphPath : String} {nodes : List Node}
    (hnodes : (nodes.map Node.id).Nodup) {place : Nat} {node : Node}
    (hnode : nodes[place]? = some node) :
    ((statementsIn graphPath nodes).filter fun occurrence =>
        occurrence.root = some node.id) =
      (statementAt? graphPath node (nodes.drop (place + 1))).toList := by
  induction nodes generalizing place with
  | nil => cases hnode
  | cons head tail ih =>
      obtain ⟨hhead, htail⟩ := List.nodup_cons.mp hnodes
      rw [statementsIn, List.filter_append]
      cases place with
      | zero =>
          injection hnode with hsame
          subst hsame
          have hfirst : ∀ occurrence ∈ (statementAt? graphPath head tail).toList,
              decide (occurrence.root = some head.id) = true := fun _ hfound =>
            decide_eq_true (root_of_statementAt?_eq_some (Option.mem_toList.mp hfound))
          have hrest : ∀ occurrence ∈ statementsIn graphPath tail,
              ¬ decide (occurrence.root = some head.id) = true := by
            intro occurrence hfound hroot
            have hmem := (roots_statementsIn_sublist graphPath tail).mem
              (List.mem_map_of_mem hfound)
            rw [of_decide_eq_true hroot] at hmem
            obtain ⟨node, hnode, heq⟩ := List.mem_map.mp hmem
            exact hhead (List.mem_map.mpr ⟨node, hnode, Option.some.inj heq⟩)
          rw [List.filter_eq_self.mpr hfirst, List.filter_eq_nil_iff.mpr hrest,
            List.append_nil]
          rfl
      | succ place =>
          have hfirst : ∀ occurrence ∈ (statementAt? graphPath head tail).toList,
              ¬ decide (occurrence.root = some node.id) = true := by
            intro occurrence hfound hroot
            have hid := root_of_statementAt?_eq_some (Option.mem_toList.mp hfound)
            rw [of_decide_eq_true hroot] at hid
            apply hhead
            rw [← Option.some.inj hid]
            exact List.mem_map_of_mem (List.mem_of_getElem? hnode)
          rw [List.filter_eq_nil_iff.mpr hfirst, List.nil_append, ih htail hnode]
          rfl

/-! ### Lengths of texts -/

theorem length_utf8_cons (c : Char) (rest : List Char) :
    (utf8 (String.ofList (c :: rest))).length =
      (utf8 (String.ofList rest)).length + c.utf8Size := by
  change (String.ofList (c :: rest)).utf8ByteSize = (String.ofList rest).utf8ByteSize + _
  have hsize : (String.ofList [c]).utf8ByteSize = c.utf8Size :=
    String.utf8ByteSize_singleton
  rw [← List.singleton_append, String.ofList_append, String.utf8ByteSize_append, hsize,
    Nat.add_comm]

/-- A character takes one byte or more. -/
theorem length_le_length_utf8 (text : String) : text.length ≤ (utf8 text).length := by
  have hchars (chars : List Char) :
      chars.length ≤ (utf8 (String.ofList chars)).length := by
    induction chars with
    | nil => exact Nat.zero_le _
    | cons c rest ih =>
        have hpos := c.utf8Size_pos
        rw [length_utf8_cons, List.length_cons]
        omega
  have hlength := hchars text.toList
  rwa [String.ofList_toList, String.length_toList] at hlength

theorem length_utf8_replicate (count : Nat) (c : Char) :
    (utf8 (String.ofList (List.replicate count c))).length = count * c.utf8Size := by
  induction count with
  | zero => simp [utf8]
  | succ count ih => rw [List.replicate_succ, length_utf8_cons, ih, Nat.succ_mul]

/-- A text that is longer than all names of a list is none of them. -/
theorem not_mem_of_length_lt {names : List String} {text : String}
    (hnames : ∀ name ∈ names, name.length < text.length) : text ∉ names :=
  fun hmem => Nat.lt_irrefl _ (hnames text hmem)

theorem sourceText_eq_self {contents : String} (hlength : 6 < contents.length) :
    sourceText contents = contents := by
  rw [sourceText] <;>
    · rintro rfl
      exact absurd hlength (by decide +kernel)

theorem statementsIn_eq_nil {graphPath : String} {nodes : List Node}
    (hnodes : ∀ node ∈ nodes, node.contents ∉ loggerNames) :
    statementsIn graphPath nodes = [] := by
  rw [List.eq_nil_iff_forall_not_mem]
  intro occurrence hfound
  obtain ⟨place, node, hnode, hstatement⟩ := mem_statementsIn.mp hfound
  exact hnodes node (List.mem_of_getElem? hnode)
    (statementAt?_eq_some_iff.mp hstatement).2.1.1

/-! ### Calls of a graph -/

namespace Graph

/-- Statements are reported in the order of the nodes.  A call is reported once, with its
root, severity, message and line, if its message has no more bytes than a message may
have, and not at all if it has more.  A message of more characters has more bytes. -/
theorem WellFormed.statements_of_call {graph : Graph} (hgraph : graph.WellFormed)
    (graphPath : String) :
    ((graph.statements graphPath).map Occurrence.root).Sublist (graph.ids.map some) ∧
      ∀ (call : Call) (place : Nat), call.nodes <+: graph.nodes.drop place →
        ((graph.statements graphPath).filter fun occurrence =>
            occurrence.root = some call.logger.id) =
          (if (utf8 call.message).length ≤ maxMessageBytes then [call.occurrence graphPath]
          else []) ∧
        (maxMessageBytes < call.message.length →
          ∀ occurrence ∈ graph.statements graphPath,
            occurrence.root ≠ some call.logger.id) := by
  constructor
  · rw [ids, List.map_map]
    exact roots_statementsIn_sublist graphPath graph.nodes
  intro call place hprefix
  obtain ⟨rest, hrest⟩ := hprefix
  have hnode : graph.nodes[place]? = some call.logger := by
    rw [← List.head?_drop, ← hrest]
    rfl
  have hafter : graph.nodes.drop (place + 1) = call.nodes.tail ++ rest := by
    rw [← List.tail_drop, ← hrest]
    rfl
  have hreported : ((graph.statements graphPath).filter fun occurrence =>
      occurrence.root = some call.logger.id) =
        if (utf8 call.message).length ≤ maxMessageBytes then [call.occurrence graphPath]
        else [] := by
    rw [statements, filter_statementsIn hgraph.nodup_ids hnode, hafter, statementAt?_call]
    split <;> rfl
  refine ⟨hreported, fun hlong occurrence hfound hroot => ?_⟩
  have hbytes := length_le_length_utf8 call.message
  rw [if_neg (by omega), List.filter_eq_nil_iff] at hreported
  exact hreported occurrence hfound (decide_eq_true hroot)

/-- A call with a call among its arguments, and one without arguments. -/
theorem statements_of_call_of_three :
    let word (id : UInt64) (contents : String) : Node :=
      ⟨id, .token, contents, 3, 3, 0, 1⟩
    let arguments : List Node := [word 5 "x", word 6 "PLUS", word 7 "log", word 8 "DOT",
      word 9 "warn", word 10 "LPAREN", word 11 "y", word 12 "RPAREN"]
    let graph : Graph := ⟨"A.java", [word 1 "LOG", word 2 "DOT", word 3 "INFO",
        word 4 "LPAREN"] ++ arguments ++ [word 13 "RPAREN", word 14 ";", word 15 "logger",
        word 16 "DOT", word 17 "severe", word 18 "LPAREN", word 19 "RPAREN",
        word 20 "SEMI"], []⟩
    let message : String := "x + log.warn(y)"
    graph.WellFormed ∧ (utf8 message).length ≤ maxMessageBytes ∧
      ((graph.statements "A.proto").filter fun occurrence =>
        occurrence.root = some 1) = [⟨"A.proto", .info, message, some 1, some 3⟩] ∧
      (graph.statements "A.proto").map Occurrence.root = [some 1, some 7, some 15] := by
  intro word arguments graph message
  have hgraph : graph.WellFormed :=
    ⟨by decide +kernel, by decide +kernel, by decide +kernel⟩
  have hshort : (utf8 message).length ≤ maxMessageBytes := by
    decide +kernel
  let call : Call :=
    { logger := word 1 "LOG", dot := word 2 "DOT", level := word 3 "INFO",
      severity := .info, opening := word 4 "LPAREN", arguments := arguments,
      closing := word 13 "RPAREN", terminator := word 14 ";",
      logger_mem := by decide +kernel, dot_eq := rfl, level_eq := by decide +kernel,
      opening_eq := rfl, arguments_end := by decide +kernel, closing_eq := rfl,
      terminator_ends := by decide +kernel }
  have hcall : call.nodes <+: graph.nodes.drop 0 := by
    decide +kernel
  have hmessage : call.message = message := by
    decide +kernel
  have hreported := ((hgraph.statements_of_call "A.proto").2 call 0 hcall).1
  rw [Call.occurrence, hmessage, if_pos hshort] at hreported
  exact ⟨hgraph, hshort, hreported, by decide +kernel⟩

/-- A call with 376 characters in its message, each of four bytes, is not reported. -/
theorem statement_lost_by_bytes :
    let word (id : UInt64) (contents : String) : Node :=
      ⟨id, .token, contents, 3, 3, 0, 1⟩
    let message : String := String.ofList (List.replicate 376 '😀')
    let graph : Graph := ⟨"A.java", [word 1 "log", word 2 "DOT", word 3 "info",
      word 4 "LPAREN", word 5 message, word 6 "RPAREN", word 7 "SEMI"], []⟩
    graph.WellFormed ∧
      (∃ call : Call, call.nodes = graph.nodes ∧ call.message = message) ∧
      message.length ≤ 1500 ∧ (utf8 message).length = 1504 ∧
      graph.statements "A.proto" = [] := by
  intro word message graph
  have hlength : message.length = 376 := by
    rw [String.length_ofList, List.length_replicate]
  have hbytes : (utf8 message).length = 1504 := length_utf8_replicate 376 '😀'
  have hids : graph.ids = [1, 2, 3, 4, 5, 6, 7] := rfl
  have hgraph : graph.WellFormed :=
    ⟨by rw [hids]; decide +kernel, fun _ hedge => absurd hedge List.not_mem_nil,
      fun _ hedge => absurd hedge List.not_mem_nil⟩
  have hargument : (word 5 message).endsStatement = false := by
    rw [Node.endsStatement, isTerminator, ← Bool.not_eq_true, List.contains_iff_mem]
    apply not_mem_of_length_lt
    rw [hlength]
    decide +kernel
  let call : Call :=
    { logger := word 1 "log", dot := word 2 "DOT", level := word 3 "info",
      severity := .info, opening := word 4 "LPAREN", arguments := [word 5 message],
      closing := word 6 "RPAREN", terminator := word 7 "SEMI",
      logger_mem := by decide +kernel, dot_eq := rfl, level_eq := by decide +kernel,
      opening_eq := rfl, arguments_end := by simpa using hargument, closing_eq := rfl,
      terminator_ends := by decide +kernel }
  have hmessage : call.message = message := by
    change String.join [sourceText message] = message
    rw [sourceText_eq_self (by omega)]
    exact String.empty_append
  have hlogger : message ∉ loggerNames := by
    apply not_mem_of_length_lt
    rw [hlength]
    decide +kernel
  have hlate : statementAt? "A.proto" call.logger (call.nodes.tail ++ []) = none := by
    rw [statementAt?_call, hmessage, hbytes]
    rfl
  have hwords : ∀ contents ∈ ["DOT", "info", "LPAREN", "RPAREN", "SEMI"],
      contents ∉ loggerNames := by
    decide +kernel
  have hrest : statementsIn "A.proto" call.nodes.tail = [] := by
    apply statementsIn_eq_nil
    intro node hnode
    have hcontents : node.contents ∈ call.nodes.tail.map Node.contents :=
      List.mem_map_of_mem hnode
    change node.contents ∈ ["DOT", "info", "LPAREN"] ++ message :: ["RPAREN", "SEMI"]
      at hcontents
    rw [List.perm_middle.mem_iff, List.mem_cons] at hcontents
    rcases hcontents with hsame | hword
    · exact hsame ▸ hlogger
    · exact hwords _ hword
  have hstatements : graph.statements "A.proto" = [] := by
    rw [List.append_nil] at hlate
    change (statementAt? "A.proto" call.logger call.nodes.tail).toList ++
      statementsIn "A.proto" call.nodes.tail = []
    rw [hlate, hrest]
    rfl
  exact ⟨hgraph, ⟨call, rfl, hmessage⟩, by omega, hbytes, hstatements⟩

end Graph

end LogCorpus
