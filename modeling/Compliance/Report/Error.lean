import Compliance.Files.Tree
import Compliance.Report.Key

/-!
# Report errors

What can go wrong while metrics are recorded and reports are handed over.
-/

namespace Compliance.Report

/-- Why a collector did not take a batch. -/
inductive TransportError where
  | file (e : Files.FileError)
  | notWritable (reason : String)
  | rejected (batchId reason : String)
  | unavailable (reason : String)
  deriving DecidableEq

def TransportError.message : TransportError → String
  | file e => "I/O error: " ++ e.message
  | notWritable reason => "JSON serialization error: " ++ reason
  | rejected batchId reason =>
      "collector rejected batch " ++ batchId ++ ": " ++ reason
  | unavailable reason => "collector unavailable: " ++ reason

inductive ReportError where
  | duplicateMetric (test metric : String)
  | invalidKey (text : String)
  | invalidValue (metric : String)
  | unrecognizedResult (text : String)
  | transport (e : TransportError)
  | malformed (reason : String)
  | noCanonicalForm (reason : String)
  | file (e : Files.FileError)
  deriving DecidableEq

namespace ReportError

def message : ReportError → String
  | duplicateMetric test metric =>
      "metric '" ++ metric ++ "' already recorded for " ++ test
  | invalidKey text =>
      "invalid test key '" ++ text ++ "': expected <class>#<method>"
  | invalidValue metric => "metric '" ++ metric ++ "' has a non-finite value"
  | unrecognizedResult text => "unrecognized result string: " ++ text
  | transport e => "transport error: " ++ e.message
  | malformed reason => "JSON error: " ++ reason
  | noCanonicalForm reason => "canonicalization error: " ++ reason
  | file e => "IO error: " ++ e.message

/-- A fault of the test itself, not of the delivery. -/
def isProgrammingError : ReportError → Bool
  | duplicateMetric _ _ => true
  | invalidKey _ => true
  | invalidValue _ => true
  | _ => false

end ReportError

end Compliance.Report
