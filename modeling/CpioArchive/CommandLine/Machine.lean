import CpioArchive.CommandLine.Notice
import CpioArchive.Json
/-!
# Notices for machines

Each notice is a JSON object that names the operation, how it went, and the data or the error.  A
complete archive is printed over several lines on the standard output, everything else on one line
on the standard error output.
-/

namespace CpioArchive.CommandLine.Machine

/-- A document about an operation. -/
def document (operation status : String) (content : String × Json) : Json :=
  .object [("operation", .text operation), ("status", .text status), content]

/-- A path and what is to be said about it. -/
def remark (path : Bytes) (reason : String) : Json :=
  .object [("path", .text (displayPath path)), ("reason", .text reason)]

/-- The document about something that may need attention. -/
def alert (operation : String) (data : Json) : List Output :=
  [.toStderr (document operation "warning" ("data", data)).compact]

/-- What is said about a complete archive. -/
def summary (output : Bytes) (report : Report) : Json :=
  .object
    [("output_path", .text (displayPath output)),
      ("files_added", .number report.filesAdded),
      ("files_skipped", .number report.filesSkipped),
      ("entries_failed", .number report.entriesFailed),
      ("bytes_read", .number report.bytesRead),
      ("bytes_written", .number report.bytesWritten),
      ("duration_ms", .number report.duration.milliseconds),
      ("skipped", .list (report.skipped.map fun skipped => remark skipped.path skipped.reason)),
      ("warnings", .list (report.warnings.map .text))]

/-- The lines of a notice. -/
def render : Notice → List Output
  | .adding _ => []
  | .skipping path reason => alert "skip" (remark path reason)
  | .abandoning path reason => alert "abandon" (remark path reason)
  | .truncated path reason => alert "truncated" (remark path reason)
  | .warning message => alert "warning" (.object [("message", .text message)])
  | .archived output report =>
    [.toStdout ((document "create" "success" ("data", summary output report)).pretty 0)]
  | .failed failure =>
    [.toStderr (document "create" "error" ("error", .text failure.chain)).compact]

end CpioArchive.CommandLine.Machine
