/-
Faults: everything that can go wrong, by cause.

A fault has a short reason for counting and a message for people.  Some faults
concern a single occurrence, so a run records them and goes on; the others stop
the run.
-/
import LogCorpus.Decimal.Text

namespace LogCorpus

/-- The cause of a failure. -/
inductive Fault where
  /-- No node has the id of the statement's root. -/
  | rootNotFound (id : UInt64)
  /-- No node after the root ends a statement. -/
  | terminatorNotFound (id : UInt64)
  /-- An edge has an endpoint that no node has as its id. -/
  | danglingEdge (source target : UInt64)
  /-- Two nodes have the same id. -/
  | duplicateNodeId (id : UInt64)
  /-- A graph has more nodes than the configuration allows. -/
  | graphTooLarge (nodes limit : Nat)
  /-- An occurrence cannot be used as it is. -/
  | invalidOccurrence (detail : String)
  /-- Keeping a group together left the named partition empty. -/
  | partitionTooSmall (partition : String)
  /-- The named fraction is not a number from zero to one. -/
  | invalidFraction (name : String) (value : Float)
  /-- The configuration or the command cannot be carried out. -/
  | invalidConfig (detail : String)
  /-- Stored data does not have the expected form. -/
  | serialization (detail : String)
  /-- A file or directory could not be used. -/
  | io (detail : String)
deriving Repr, DecidableEq

namespace Fault

/-- The text that tells a person what happened. -/
def message : Fault → String
  | rootNotFound id => s!"Root node {id} not found in graph"
  | terminatorNotFound id => s!"No statement terminator after root node {id}"
  | danglingEdge source target => s!"Dangling edge: {source} -> {target}"
  | duplicateNodeId id => s!"Duplicate node id: {id}"
  | graphTooLarge nodes limit => s!"Graph has {nodes} nodes, limit is {limit}"
  | invalidOccurrence detail => s!"Invalid occurrence: {detail}"
  | partitionTooSmall partition =>
      "Dataset too small for the requested split: " ++
        s!"{partition} partition became empty"
  | invalidFraction name value =>
      s!"Invalid fraction for {name}: {decimalText value}"
  | invalidConfig detail => s!"Invalid configuration: {detail}"
  | serialization detail => s!"Serialization error: {detail}"
  | io detail => s!"I/O error: {detail}"

/-- The name under which a fault is counted. -/
def reason : Fault → String
  | rootNotFound _ => "root_not_found"
  | terminatorNotFound _ => "terminator_not_found"
  | danglingEdge _ _ => "dangling_edge"
  | duplicateNodeId _ => "duplicate_node_id"
  | graphTooLarge _ _ => "graph_too_large"
  | invalidOccurrence _ => "invalid_occurrence"
  | partitionTooSmall _ => "partition_too_small"
  | invalidFraction _ _ => "invalid_fraction"
  | invalidConfig _ => "invalid_config"
  | serialization _ => "serialization"
  | io _ => "io"

/-- Does the fault concern one occurrence only, so that a run may go on? -/
def isPerItem : Fault → Bool
  | partitionTooSmall _ => false
  | invalidFraction _ _ => false
  | invalidConfig _ => false
  | _ => true

end Fault

end LogCorpus
