import Compliance.Cli.Running

/-!
# Flushing what is left

Reports that an earlier run could not deliver are tried again, without running
any test.  The artifacts are brought up to date with what came of it.
-/

namespace Compliance.Cli

open Compliance.Files (Tree)
open Compliance.Report (FlushReceipt Outbox ReportError)
open Compliance.Run (Delivery ExitCode Summary)

/-- The summary an earlier run left, if there is one that can be read. -/
def summaryIn (t : Tree) (out : String) : Option Summary :=
  (t.readText (Artifact.path .summary out)).toOption.bind Summary.ofText?

/-- What an earlier run said about its delivery. -/
def deliveryIn (t : Tree) (out : String) : Delivery :=
  match summaryIn t out with
  | some m => m.report
  | none => .none

/-- Only a summary that was there is written. -/
def updateSummary (out : String) (d : Delivery) (m : Option Summary) (t : Tree) :
    Tree :=
  match m with
  | some m => Artifact.write .summary out (m.withReport d).toText t
  | none => t

def renderReceipt (r : FlushReceipt) : String :=
  "Flushed " ++ Number.decimal r.sent ++ " report log(s)" ++
    (match r.location with
      | some l => " to " ++ l
      | none => "") ++ "\n"

def renderDelivery (d : Delivery) : String :=
  d.toJson.print .pretty ++ "\n"

namespace FlushCommand

/-- The directory a flush addresses: the one asked for, else that of the run. -/
def reportDirIn (c : FlushCommand) (t : Tree) : String :=
  (deliveryIn t c.out).reportDir c.reportDir

/-- What is printed and left of pending reports, by how the flush went. -/
def conclude (c : FlushCommand) (d : Delivery) (outbox : Outbox) (t : Tree) :
    Except ReportError FlushReceipt → Reply
  | .ok receipt =>
      ⟨0, if c.json then renderDelivery d else renderReceipt receipt, "",
        Artifact.remove .pending c.out t⟩
  | .error e =>
      ⟨ExitCode.transport.value, if c.json then renderDelivery d else "",
        if c.json then "" else "Flush failed: " ++ e.message ++ "\n",
        (outbox.save t (Artifact.path .pending c.out)).1⟩

/-- Flushes an outbox that was read from the pending reports. -/
def deliver (c : FlushCommand) (s : Setting) (outbox : Outbox) : Reply :=
  let summary := summaryIn s.tree c.out
  let dir := c.reportDirIn s.tree
  let (flushed, outbox, t) :=
    outbox.flush (collectorIn c.out dir) ⟨s.batchId, s.now⟩ s.tree
  let delivery := { (deliveryIn s.tree c.out).afterFlush outbox.unsentCount
    flushed with dir := some dir }
  c.conclude delivery outbox (updateSummary c.out delivery summary t) flushed

def pendingComplaint (path : String) (e : ReportError) : String :=
  "Error loading " ++ path ++ ": " ++ e.message

def perform (c : FlushCommand) (s : Setting) : Reply :=
  let pending := Artifact.path .pending c.out
  if s.tree.exists? pending then
    match Outbox.load s.tree pending with
    | .error e => .refusal s (pendingComplaint pending e)
    | .ok outbox => c.deliver s outbox
  else .text s ("No pending reports in " ++ c.out ++ "\n")

end FlushCommand

end Compliance.Cli
