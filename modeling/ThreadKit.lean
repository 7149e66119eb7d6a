import ThreadKit.Script.Value
import ThreadKit.Text.Quoted
import ThreadKit.Identity
import ThreadKit.Abort
import ThreadKit.Machine.Ref
import ThreadKit.Script.Step
import ThreadKit.Machine.Schedule
import ThreadKit.Script.Render
import ThreadKit.Script.Run
import ThreadKit.Proofs.Frame
import ThreadKit.Proofs.Protocol
import ThreadKit.Proofs.Sound
import ThreadKit.Proofs.Moves
import ThreadKit.Proofs.Read
import ThreadKit.Proofs.Steps
import ThreadKit.Proofs.Exclusion
import ThreadKit.Proofs.History
import ThreadKit.Proofs.Handshake
import ThreadKit.Proofs.Latch
import ThreadKit.Proofs.Ending
import ThreadKit.Proofs.Wakeup
import ThreadKit.Proofs.ForkHook
import ThreadKit.Proofs.Lifecycle
import ThreadKit.Proofs.Condition
import ThreadKit.Proofs.Roster
import ThreadKit.Proofs.TidText
import ThreadKit.Proofs.Names
import ThreadKit.Proofs.Lineage
