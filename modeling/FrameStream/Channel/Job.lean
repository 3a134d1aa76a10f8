import FrameStream.Channel.Book
import FrameStream.Service.Phase

/-!
# Jobs on a channel

A job that streams on a channel holds its slot and a place among its senders. Before the job says its last
word it gives back the slot, so that a client that reads it can ask for the next job at once; giving back
and queuing are steps of their own, and others may move in between.
-/

namespace FrameStream

/-- A job that streams on a channel. -/
structure ChannelJob where
  conn : String
  channel : ChannelNumber
  id : JobId
  phase : Phase
  /-- The slot was given back for the message that is about to be sent. -/
  released : Bool := false
  /-- The number under which its message waits for room. -/
  ticket? : Option Nat := none
  /-- The job has returned and let go of the channel. -/
  retired : Bool := false

namespace ChannelJob

/-- The message that the job is to hand to the queue. -/
def message? (j : ChannelJob) : Option Message := if j.ticket?.isSome then none else j.phase.message?

/-- Gives back the slot, if the job still holds it. -/
def release (j : ChannelJob) (b : ChannelBook) : ChannelJob × ChannelBook :=
  ({ j with released := true }, (b.endJob j.conn j.id).2)

/-- The job learns whether its message got through. -/
def answered (j : ChannelJob) (delivered : Bool) : ChannelJob :=
  { j with phase := j.phase.answered delivered, ticket? := none }

def push (j : ChannelJob) (b : ChannelBook) (ticket : Nat) (m : Message) : ChannelJob × ChannelBook :=
  let (d, b) := b.send j.channel ticket m.text
  (match d with
    | .queued => j.answered true
    | .closed => j.answered false
    | .waits => { j with ticket? := some ticket }, b)

/-- One step of sending: the slot is given back before the last message, then the message is queued. -/
def send? (j : ChannelJob) (b : ChannelBook) (ticket : Nat) : Option (ChannelJob × ChannelBook) :=
  j.message?.map fun m => if m.isLast && !j.released then j.release b else j.push b ticket m

/-- A job that has returned gives back the slot and lets go of the channel. -/
def retire? (j : ChannelJob) (b : ChannelBook) : Option (ChannelJob × ChannelBook) :=
  if j.phase.outcome?.isSome && !j.retired then
    let (j, b) := j.release b
    some ({ j with retired := true }, b.modify j.channel Outbound.dropSender)
  else none

end ChannelJob
end FrameStream
