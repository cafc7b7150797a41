import CpioArchive.CommandLine.Notice
import CpioArchive.Text.ByteSize
/-!
# Notices for people

Each notice about an input is a line on the standard error output; the summary of an archive goes to
the standard output.  A quiet program keeps to what went wrong, a verbose one names every entry.
-/

namespace CpioArchive.CommandLine

/-- How much is told, and how it is styled. -/
structure Style where
  verbose : Bool := false
  quiet : Bool := false
  /-- Whether text may be coloured. -/
  colors : Bool := false
  /-- Whether lines on the standard error output begin with a symbol. -/
  symbols : Bool := false

namespace Style

/-- A text in bold and in a colour, given by the code that turns it on. -/
def colored (style : Style) (code : String) (text : String) : String :=
  if style.colors then "\x1b[" ++ code ++ "m\x1b[1m" ++ text ++ "\x1b[0m" else text

/-- The code for green. -/
def green : String := "32"

/-- The code for yellow. -/
def yellow : String := "33"

/-- The code for red. -/
def red : String := "31"

/-- A line behind its symbol. -/
def marked (style : Style) (code symbol line : String) : List Output :=
  [.toStderr (if style.symbols then style.colored code symbol ++ " " ++ line else line)]

/-- A line about an input that may need attention. -/
def alert (style : Style) (line : String) : List Output := style.marked yellow "⚠" line

/-- The lines about an archive that is complete. -/
def summary (style : Style) (output : Bytes) (report : Report) : List String :=
  let created := "Archive created: " ++ displayPath output
  [if style.colors then style.colored green "✓" ++ " " ++ created else created,
    "",
    "  Files added:      " ++ Text.grouped report.filesAdded]
  ++ (if 0 < report.filesSkipped then
      ["  Files skipped:    " ++ Text.grouped report.filesSkipped] else [])
  ++ (if 0 < report.entriesFailed then
      ["  Entries failed:   " ++ Text.grouped report.entriesFailed] else [])
  ++ ["  Total size:       " ++ Text.byteSize Text.ByteUnit.ofSummary report.bytesWritten]
  ++ (if style.verbose then
      ["  Content read:     " ++ Text.byteSize Text.ByteUnit.ofSummary report.bytesRead,
        "  Duration:         " ++ report.duration.exactText] else [])
  ++ (if report.hasWarnings then
      ["", "  Warnings:         " ++ Text.decimal report.warnings.length
        ++ " (archive may be malformed)"] else [])

/-- The lines of a notice. -/
def render (style : Style) : Notice → List Output
  | .adding path => if style.verbose then [.toStdout ("adding " ++ displayPath path)] else []
  | .skipping path reason =>
    if style.quiet then [] else style.alert ("skipping " ++ displayPath path ++ ": " ++ reason)
  | .abandoning path reason =>
    style.marked red "✗" ("abandoning " ++ displayPath path ++ ": " ++ reason)
  | .truncated path reason => style.alert ("truncated " ++ displayPath path ++ ": " ++ reason)
  | .warning message => style.alert message
  | .archived output report =>
    if style.quiet then [] else (style.summary output report).map .toStdout
  | .failed failure =>
    [.toStderr ((if style.symbols then style.colored red "error:" else "error:") ++ " "
      ++ failure.details)]

end Style

end CpioArchive.CommandLine
