import NpcDialog.Dialog.Log

/-!
# The channel

Where events go.  A channel has one receiver; once that is gone, every event
leaves a line in the log instead, and nothing else changes.

* `Channel` — the sending end.
* `Channel.forward` — what becomes of a report.
* `Channel.received`, `Channel.lines` — the two sides of it.
-/

namespace NpcDialog

/-- The sending end of a channel. -/
structure Channel where
  /-- Is there anybody who receives? -/
  isOpen : Bool
  deriving DecidableEq

namespace Channel

/-- What becomes of a report. -/
def forward (c : Channel) : Report → Report
  | .event e => if c.isOpen then .event e else .line .eventDropped
  | .line l => .line l
  | .process u => .process u

/-- The events that arrive. -/
def received (c : Channel) (rs : List Report) : List Event := Report.events (rs.map c.forward)

/-- The lines of the log. -/
def lines (c : Channel) (rs : List Report) : List LogLine := Report.lines (rs.map c.forward)

/-- The channel without its receiver. -/
def withoutReceiver (_ : Channel) : Channel := ⟨false⟩

end Channel

end NpcDialog
