import IntcodeVM.Channel

namespace IntcodeVM

/-- Keeps every value that was pushed until it is closed. -/
structure Collector where
  values : Array Int := #[]
  closed : Bool := false
  deriving DecidableEq, Repr

namespace Collector

def push (value : Int) (c : Collector) : Option Cause × Collector :=
  if c.closed then (some (.sinkTerminated ""), c)
  else (none, { c with values := c.values.push value })

def close (c : Collector) : Collector := { c with closed := true }

def last? (c : Collector) : Option Int := c.values.back?

end Collector

inductive Sink where
  | collector (c : Collector)
  | channel (ch : Channel Int)
  deriving DecidableEq, Repr

namespace Sink

def push (value : Int) : Sink → Option Cause × Sink
  | collector c => let (refused, c) := c.push value; (refused, collector c)
  | channel ch => let (refused, ch) := ch.push value; (refused, channel ch)

def close : Sink → Sink
  | collector c => collector c.close
  | channel ch => channel ch.closeSender

def senderClosed : Sink → Bool
  | collector c => c.closed
  | channel ch => ch.senderClosed

def closed : Sink → Bool
  | collector c => c.closed
  | channel ch => ch.closed

/-- The values that can be seen at the output now: all that were collected, or those queued. -/
def visible : Sink → List Int
  | collector c => c.values.toList
  | channel ch => ch.queue

end Sink

end IntcodeVM
