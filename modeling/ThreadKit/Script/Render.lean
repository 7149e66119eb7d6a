import ThreadKit.Machine.Reply
import ThreadKit.Text.Quoted

/-! Writing answers out. Every tid in an answer, as a member or inside a text, is written as its
label, given by `label`. -/
namespace ThreadKit.Script

open Value

/-- The kind and message of a refused step. -/
def StepError.describe : StepError → String × String
  | .badInput message => ("bad_input", message)
  | .unknownId id => ("unknown_id", id)
  | .duplicateId id => ("duplicate_id", id)
  | .notHeld id => ("not_held", id)
  | .deadlock => ("deadlock", "lock on a mutex this thread already holds")
  | .guardBorrow => ("borrow", "mutex is locked by a guard of this thread")
  | .shared => ("borrow", "mutex is shared")

/-- The answer for a refused step. -/
def StepError.render (e : StepError) : Value :=
  .obj [("error", .str e.describe.1), ("message", .str e.describe.2)]

/-- The kind, message and fatality of a failure. -/
def renderFailure (label : Tid → String) (kindKey : String) (f : Failure) : Value :=
  .obj [(kindKey, .str f.kind.word), ("message", .str (f.message label)),
    ("fatal", .bool f.isFatal)]

/-- The debugging view of a thread object. -/
def threadDebug (label : Tid → String) (v : ThreadView) : String :=
  "Thread \x7b name: " ++ Text.quote v.name ++ ", tid: " ++ label v.tid ++ ", started: " ++
    toString v.started ++ ", joined: " ++ toString v.joined ++ ", .. \x7d"

/-- The members shared by both answers about a thread object. -/
def threadMembers (label : Tid → String) (v : ThreadView) : List (String × Value) :=
  [("name", .str v.name), ("tid", .str (label v.tid)), ("started", .bool v.started),
    ("joined", .bool v.joined)]

/-- What the child of a fork reported. -/
def renderFork (r : Identity.ForkReport) : Value :=
  .obj [("child", .obj [("tid_changed", .bool r.child.tidChanged),
      ("tid_is_pid", .bool r.child.tidIsPid), ("is_main", .bool r.child.isMain),
      ("name", .str r.child.name), ("tid_string_fresh", .bool r.child.textFresh),
      ("thread_ok", .bool r.child.threadOk)]),
    ("child_exited_normally", .bool r.childExitedNormally),
    ("parent_tid_unchanged", .bool r.parentTidUnchanged)]

/-- What `current` found. -/
def renderCurrent (label : Tid → String) (r : CurrentReport) : Value :=
  .obj [("tid", .str (label r.tid)), ("name", .str r.name), ("is_main", .bool r.isMain),
    ("tid_string", (r.textTid.map fun t => Value.str (label t)).getD .null),
    ("tid_string_shape", .bool r.shape), ("os_name", .str r.osName)]

/-- The answer to one step. -/
def render (label : Tid → String) : Reply → Value
  | .empty => .obj []
  | .int v => .obj [("value", .int v)]
  | .flag b => .obj [("value", .bool b)]
  | .holder t => .obj [("holder", .str (label t))]
  | .text s => .obj [("debug", .str s)]
  | .mutexDebug t => .obj [("debug", .str ("Mutex \x7b holder: " ++ label t ++ ", .. \x7d"))]
  | .waited v self => .obj [("value", .int v), ("holder_is_self", .bool self)]
  | .current r => renderCurrent label r
  | .fork r => renderFork r
  | .made v => .obj (threadMembers label v)
  | .started t => .obj [("tid", .str (label t))]
  | .info v => .obj (threadMembers label v ++ [("debug", .str (threadDebug label v))])
  | .records rs => .obj [("records", .arr (rs.map (render label)))]
  | .exited rs =>
    .obj [("error", .str "JoinError::Exited"),
      ("message", .str "thread exited before its function returned"),
      ("records", .arr (rs.map (render label)))]
  | .classified f => renderFailure label "kind" f
  | .exception what trace =>
    .obj [("what", .str what), ("display", .str what), ("has_stack_trace", .bool !trace.isEmpty)]
  | .caught f => renderFailure label "error" f
  | .refused e => e.render

end ThreadKit.Script
