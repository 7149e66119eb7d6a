import ThreadKit.Script.Render
import ThreadKit.Script.Parse
import ThreadKit.Script.Print
import ThreadKit.Machine.Schedule

/-! Answering one input. An input is an object `{"op": "script", "steps": [...]}`; its steps run
in a fresh process, and the answer is the replies of main's steps, or the report of an abort. -/
namespace ThreadKit.Script

/-- The answer for an input that is not a script. -/
def badInput (message : String) : Value :=
  .obj [("error", .str "bad_input"), ("message", .str message)]

/-- The answer of a finished run: the replies of main's steps if main finished, else the report
of the abort that ended the process. A run that neither finished nor aborted gives up. -/
def outcome (w : World) : Value :=
  match w.abort with
  | some a =>
    .obj [("abort", .str "SIGABRT"), ("stderr", .arr ((a.lines w.host.backtrace).map .str))]
  | none =>
    if w.main.ended.isSome then
      .obj [("steps", .arr (w.main.replies.map (render w.label)))]
    else .obj [("error", .str "timeout"), ("message", .str "input did not finish")]

/-- Run the steps of a script in a fresh process. -/
def runScript (steps : List Value) : Value :=
  outcome (World.run (World.budget steps) (World.init .tested steps))

/-- The answer to one input line, given as the value it parses to, or `none` when it is not
JSON. -/
def respond : Option Value → Value
  | none => badInput "invalid JSON"
  | some input@(.obj _) =>
    match (input.get? "op").bind Value.string? with
    | none => badInput "missing op"
    | some "script" =>
      match (input.get? "steps").bind Value.items? with
      | none => badInput "missing steps"
      | some steps => runScript steps
    | some op => badInput ("unknown op " ++ op)
  | some _ => badInput "input is not an object"

/-- The answer to one input line, as JSON text. -/
def answer (line : String) : String := (respond (parse line)).write

end ThreadKit.Script
