/-
What the program prints: summaries for people, and the same as JSON.
-/
import LogCorpus.Conversion.Run
import LogCorpus.Json.Writer

namespace LogCorpus

/-- A text with blanks after it, up to a width. -/
def padRight (width : Nat) (text : String) : String :=
  text ++ String.ofList (List.replicate (width - text.length) ' ')

/-- Lines with their ends. -/
def unlines (lines : List String) : String :=
  String.join (lines.map (· ++ "\n"))

/-- Numbers by name. -/
def countsJson (counts : List (String × Nat)) : Json :=
  .ofMembers (counts.map fun (name, count) => (name, .natural count))

namespace Report

/-- The lines of a report: the counts, the reasons and some paths. -/
def lines (report : Report) : List String :=
  let samples :=
    match report.samplePaths with
    | [] => []
    | paths => "Sample failures:" :: paths.map ("  " ++ ·)
  [s!"Processed:  {report.total}",
    s!"Succeeded:  {report.succeeded}",
    s!"Failed:     {report.failures.length}"] ++
    (report.reasons.map fun (reason, count) =>
      "  " ++ padRight 22 reason ++ s!" {count}") ++
    samples

def toJson (report : Report) : Json :=
  .ofMembers [
    ("total", .natural report.total),
    ("succeeded", .natural report.succeeded),
    ("failed", .natural report.failures.length),
    ("reasons", countsJson report.reasons),
    ("sample_paths", .array (report.samplePaths.map .text))]

end Report

namespace Statistics

/-- The lines of statistics. -/
def lines (statistics : Statistics) : List String :=
  ["Corpus Statistics", "=================", ""] ++
    (statistics.perSeverity.map fun (severity, count) =>
      "  " ++ padRight 6 severity.name ++ s!" {count}") ++
    ["",
      s!"Total logs: {statistics.total}",
      s!"Files:      {statistics.files}",
      s!"Groups:     {statistics.groups}"]

def toJson (statistics : Statistics) : Json :=
  .ofMembers [
    ("total", .natural statistics.total),
    ("per_severity", countsJson
      (statistics.perSeverity.map fun (severity, count) =>
        (severity.name, count))),
    ("files", .natural statistics.files),
    ("groups", .natural statistics.groups)]

end Statistics

namespace PartSummary

/-- The line of a part. -/
def line (summary : PartSummary) : String :=
  "  " ++ padRight 11 summary.part.name ++
    s!" {summary.size} occurrences, {summary.written} written"

/-- The numbers of a part, under its name. -/
def toMember (summary : PartSummary) : String × Json :=
  (summary.part.name,
    countsJson [("size", summary.size), ("written", summary.written)])

end PartSummary

namespace RunSummary

/-- The lines of a run. -/
def lines (summary : RunSummary) : List String :=
  ["Conversion Summary", "==================", ""] ++
    summary.report.lines ++ ["", "Splits:"] ++
    summary.parts.map PartSummary.line ++ ["", "Files:"] ++
    summary.parts.map fun part => "  " ++ part.output

def toJson (summary : RunSummary) : Json :=
  .ofMembers [
    ("stats", summary.statistics.toJson),
    ("splits", .ofMembers (summary.parts.map PartSummary.toMember)),
    ("outputs", .array (summary.parts.map fun part => .text part.output)),
    ("report", summary.report.toJson)]

end RunSummary

end LogCorpus
