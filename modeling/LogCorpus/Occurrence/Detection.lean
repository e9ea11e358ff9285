/-
Detection of logging statements.

A logging statement is a logger's name, any node, a level, any node and then
the message up to the closing parenthesis before the terminator.
-/
import LogCorpus.Occurrence.Basic
import LogCorpus.Statement.Span
import LogCorpus.Text.Bytes

namespace LogCorpus

/-- The contents of the nodes that start a logging statement. -/
def loggerNames : List String :=
  ["logger", "log", "LOG"]

/-- The longest message of a genuine statement, in bytes. -/
def maxMessageBytes : Nat :=
  1500

/-- The severity that a level method or constant stands for.  Case does not
count.  Only ASCII letters are lowered: no level has a `k`, the one ASCII letter
that is the lower case of a character outside ASCII. -/
def severityOfLevel? (level : String) : Option Severity :=
  match String.ofList (level.toList.map Char.toLower) with
  | "trace" | "tracef" | "tracev" | "finer" | "finest" => some .trace
  | "debug" | "debugf" | "debugv" | "config" => some .debug
  | "info" | "infof" | "infov" | "fine" => some .info
  | "warn" | "warnf" | "warnv" => some .warn
  | "error" | "errorf" | "errorv" | "warning" => some .error
  | "fatal" | "fatalf" | "fatalv" | "severe" => some .fatal
  | _ => none

/-- The source text of a node: the names of six signs stand for the signs. -/
def sourceText : String → String
  | "PLUS" => " + "
  | "DOT" => "."
  | "COLON" => ":"
  | "COMMA" => ","
  | "LPAREN" => "("
  | "RPAREN" => ")"
  | contents => contents

/-- The source text of the argument nodes: all before the node that precedes
the first terminator. -/
def messageOf? (arguments : List Node) : Option String :=
  (firstTerminator? arguments).map fun (place, _) =>
    String.join
      ((arguments.take (place - 1)).map fun node => sourceText node.contents)

/-- The logging statement that starts at a node, given the nodes after it. -/
def statementAt? (graphPath : String) (node : Node) (after : List Node) :
    Option Occurrence := do
  guard (loggerNames.contains node.contents)
  let level ← after[1]?
  let severity ← severityOfLevel? level.contents
  let message ← messageOf? (after.drop 3)
  guard ((utf8 message).length ≤ maxMessageBytes)
  return {
    graphPath, severity, message
    root := some node.id
    line := some node.startLine }

/-- The logging statements that start at the nodes of a list, in order. -/
def statementsIn (graphPath : String) : List Node → List Occurrence
  | [] => []
  | node :: after =>
      (statementAt? graphPath node after).toList ++ statementsIn graphPath after

/-- The logging statements of a graph, in node order. -/
def Graph.statements (graph : Graph) (graphPath : String) : List Occurrence :=
  statementsIn graphPath graph.nodes

end LogCorpus
