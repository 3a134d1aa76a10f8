import FrameStream.Binary64.Basic
import FrameStream.Binary64.Reading
import FrameStream.Binary64.Shortest
import FrameStream.Bytes
import FrameStream.Channel.Book
import FrameStream.Channel.Connection
import FrameStream.Channel.Job
import FrameStream.Channel.Outbound
import FrameStream.Channel.Server
import FrameStream.Frame
import FrameStream.Http.Exchange
import FrameStream.Http.Origins
import FrameStream.Http.Router
import FrameStream.Http.Target
import FrameStream.Image.Encoder
import FrameStream.Image.Jpeg.Encode
import FrameStream.Image.Jpeg.Entropy
import FrameStream.Image.Jpeg.Tables
import FrameStream.Image.Jpeg.Transform
import FrameStream.Json.Fault
import FrameStream.Json.Numeral
import FrameStream.Json.Parse
import FrameStream.Json.Reader
import FrameStream.Json.Skipping
import FrameStream.Json.Text
import FrameStream.Json.Value
import FrameStream.Message
import FrameStream.NameTable
import FrameStream.Pool
import FrameStream.Powers
import FrameStream.Processor
import FrameStream.Processor.Echo
import FrameStream.Processor.Invert
import FrameStream.Proofs.Channel.Admission
import FrameStream.Proofs.Channel.Advance
import FrameStream.Proofs.Channel.Alone
import FrameStream.Proofs.Channel.Answers
import FrameStream.Proofs.Channel.Bare
import FrameStream.Proofs.Channel.Bystander
import FrameStream.Proofs.Channel.Correlation
import FrameStream.Proofs.Channel.Custody
import FrameStream.Proofs.Channel.Docket
import FrameStream.Proofs.Channel.Exclusion
import FrameStream.Proofs.Channel.Farewell
import FrameStream.Proofs.Channel.Feeding
import FrameStream.Proofs.Channel.Flow
import FrameStream.Proofs.Channel.Holder
import FrameStream.Proofs.Channel.Intake
import FrameStream.Proofs.Channel.Lifecycle
import FrameStream.Proofs.Channel.Mirror
import FrameStream.Proofs.Channel.Occupied
import FrameStream.Proofs.Channel.Outflow
import FrameStream.Proofs.Channel.Queue
import FrameStream.Proofs.Channel.Replies
import FrameStream.Proofs.Channel.Returning
import FrameStream.Proofs.Channel.Silence
import FrameStream.Proofs.Channel.Speech
import FrameStream.Proofs.Channel.Steps
import FrameStream.Proofs.Channel.Stopping
import FrameStream.Proofs.Channel.Succession
import FrameStream.Proofs.Channel.Tally
import FrameStream.Proofs.Channel.Tenure
import FrameStream.Proofs.Channel.Timeline
import FrameStream.Proofs.Channel.Traffic
import FrameStream.Proofs.Channel.Turns
import FrameStream.Proofs.Channel.Undisturbed
import FrameStream.Proofs.Channel.Workshop
import FrameStream.Proofs.Json.Grammar
import FrameStream.Proofs.Json.Members
import FrameStream.Proofs.Json.Numerals
import FrameStream.Proofs.Json.Quoting
import FrameStream.Proofs.Json.Records
import FrameStream.Proofs.Json.Rereading
import FrameStream.Proofs.Json.Results
import FrameStream.Proofs.Json.Scanning
import FrameStream.Proofs.Json.Skipping
import FrameStream.Proofs.Json.Spelling
import FrameStream.Proofs.Leads
import FrameStream.Proofs.Message.Wire
import FrameStream.Proofs.NameTable
import FrameStream.Proofs.Places
import FrameStream.Proofs.Pool.Chronicle
import FrameStream.Proofs.Pool.Conservation
import FrameStream.Proofs.Pool.Draining
import FrameStream.Proofs.Pool.InTurn
import FrameStream.Proofs.Pool.Moves
import FrameStream.Proofs.Pool.Roster
import FrameStream.Proofs.Pool.Slots
import FrameStream.Proofs.Processor.Invert
import FrameStream.Proofs.Producer
import FrameStream.Proofs.Registry
import FrameStream.Proofs.Rehearsal.Channels
import FrameStream.Proofs.Rehearsal.Runs
import FrameStream.Proofs.Rehearsal.Serving
import FrameStream.Proofs.Rehearsal.Workers
import FrameStream.Proofs.Request.Accept
import FrameStream.Proofs.Request.Counting
import FrameStream.Proofs.Request.Fields
import FrameStream.Proofs.Request.Reading
import FrameStream.Proofs.Request.Rules
import FrameStream.Proofs.Service.Along
import FrameStream.Proofs.Service.Closing
import FrameStream.Proofs.Service.Coupling
import FrameStream.Proofs.Service.Hearing
import FrameStream.Proofs.Service.Isolation
import FrameStream.Proofs.Service.Muted
import FrameStream.Proofs.Service.Plan
import FrameStream.Proofs.Service.Progress
import FrameStream.Proofs.Service.Sequential
import FrameStream.Proofs.Service.Solo
import FrameStream.Proofs.Service.Steps
import FrameStream.Proofs.Service.Termination
import FrameStream.Proofs.Service.Transcript
import FrameStream.Proofs.Service.Winding
import FrameStream.Proofs.Text.Base64
import FrameStream.Proofs.Unicode.Blank
import FrameStream.Proofs.Unicode.Lowercase
import FrameStream.Proofs.Video.Framing
import FrameStream.Registry
import FrameStream.Rehearsal.Channels
import FrameStream.Rehearsal.Jobs
import FrameStream.Rehearsal.Line
import FrameStream.Rehearsal.Scripted
import FrameStream.Rehearsal.Serving
import FrameStream.Rehearsal.Timed
import FrameStream.Rehearsal.Workers
import FrameStream.Request
import FrameStream.Resource
import FrameStream.Service.Admission
import FrameStream.Service.Config
import FrameStream.Service.Phase
import FrameStream.Settings
import FrameStream.StreamError
import FrameStream.Text.Base64
import FrameStream.Text.Quoted
import FrameStream.Text.Unsigned
import FrameStream.Unicode.Blank
import FrameStream.Unicode.Casing
import FrameStream.Unicode.Lowercase
import FrameStream.Unicode.Printing
import FrameStream.Unicode.Ranges
import FrameStream.Video.Decoder
import FrameStream.Video.FileTree
import FrameStream.Video.Probe
import FrameStream.Video.Program
import FrameStream.Video.Source
