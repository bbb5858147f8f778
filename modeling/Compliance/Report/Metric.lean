import Compliance.Json.Decode
import Compliance.Number.Layout

/-!
# Metrics

A named measurement, a single value or a series of samples, with its unit and
the way the host should judge it.
-/

namespace Compliance.Report

open Compliance.Number (Binary64 Layout)

/-- How a metric is judged. -/
inductive Judgement where
  | higherBetter
  | lowerBetter
  | neutral
  | warning
  deriving DecidableEq

def Judgement.wire : Judgement → String
  | higherBetter => "higher_better"
  | lowerBetter => "lower_better"
  | neutral => "neutral"
  | warning => "warning"

def Judgement.cases : List (String × Judgement) :=
  [.higherBetter, .lowerBetter, .neutral, .warning].map fun j => (j.wire, j)

inductive MetricUnit where
  | none
  | ms
  | us
  | fps
  | ops
  | kbps
  | mbps
  | byte
  | count
  | score
  | hz
  | percent
  deriving DecidableEq

def MetricUnit.wire : MetricUnit → String
  | none => "none"
  | ms => "ms"
  | us => "us"
  | fps => "fps"
  | ops => "ops"
  | kbps => "kbps"
  | mbps => "mbps"
  | byte => "byte"
  | count => "count"
  | score => "score"
  | hz => "hz"
  | percent => "percent"

def MetricUnit.cases : List (String × MetricUnit) :=
  [.none, .ms, .us, .fps, .ops, .kbps, .mbps, .byte, .count, .score, .hz,
    .percent].map fun u => (u.wire, u)

inductive MetricValue where
  | single (x : Binary64)
  | series (xs : List Binary64)
  deriving DecidableEq

namespace MetricValue

def samples : MetricValue → List Binary64
  | single x => [x]
  | series xs => xs

def isSeries : MetricValue → Bool
  | single _ => false
  | series _ => true

def isFinite (v : MetricValue) : Bool :=
  v.samples.all (·.isFinite)

def size (v : MetricValue) : Nat :=
  v.samples.length

/-- Values are compared by their numbers, so the sign of a zero does not count. -/
def numEq : MetricValue → MetricValue → Bool
  | single x, single y => x.numEq y
  | series xs, series ys => xs.isEqv ys Binary64.numEq
  | _, _ => false

/-- The value as result strings show it: samples with a blank between them. -/
def render (v : MetricValue) : String :=
  " ".intercalate (v.samples.map Layout.plain.render)

def toJson : MetricValue → Json
  | single x => .number (.real x)
  | series xs => .array (xs.map fun x => .number (.real x))

def ofJson? (v : Json) : Option MetricValue :=
  match Json.binary64? v with
  | some x => some (single x)
  | none => (Json.listOf? Json.binary64? v).map series

end MetricValue

structure Metric where
  name : String
  value : MetricValue
  unit : MetricUnit
  judgement : Judgement
  deriving DecidableEq

namespace Metric

def numEq (m n : Metric) : Bool :=
  m.name == n.name && m.value.numEq n.value && m.unit == n.unit &&
    m.judgement == n.judgement

def toJson (m : Metric) : Json :=
  .object [("name", .string m.name), ("value", m.value.toJson),
    ("unit", .string m.unit.wire), ("type", .string m.judgement.wire)]

def ofJson? (v : Json) : Option Metric := do
  let f ← v.fields? .json ["name", "value", "unit", "type"] false
  return {
    name := ← f.required "name" Json.asString?
    value := ← f.required "value" MetricValue.ofJson?
    unit := ← f.required "unit" (Json.choice? .json MetricUnit.cases)
    judgement := ← f.required "type" (Json.choice? .json Judgement.cases) }

end Metric

end Compliance.Report
