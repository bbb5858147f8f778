import Compliance.Report.Log

/-!
# Result strings

Older hosts take the metrics of a test as one string: the headline, four plus
signs, and the details with three plus signs between them.
-/

namespace Compliance.Report.ResultString

def halves : String := "++++"

def between : String := "+++"

def ofMetric (m : Metric) : String :=
  m.name ++ "|" ++ m.judgement.wire ++ "|" ++ m.unit.wire ++ "|" ++
    m.value.render

/-- The two halves of the string of a log. -/
def headline (log : Log) : String :=
  (log.headline.map ofMetric).getD ""

def details (log : Log) : String :=
  between.intercalate (log.details.map fun (_, m) => ofMetric m)

def ofLog (log : Log) : String :=
  headline log ++ halves ++ details log

/-- Cuts a text at the last place where four plus signs stand. -/
def splitAtLast : List Char → Option (List Char × List Char)
  | [] => none
  | c :: rest =>
      match splitAtLast rest with
      | some (a, b) => some (c :: a, b)
      | none =>
          match c, rest with
          | '+', '+' :: '+' :: '+' :: tail => some ([], tail)
          | _, _ => none

def split (text : String) : Except ReportError (String × String) :=
  match splitAtLast text.toList with
  | some (a, b) => .ok (String.ofList a, String.ofList b)
  | none => .error (.unrecognizedResult text)

end Compliance.Report.ResultString
