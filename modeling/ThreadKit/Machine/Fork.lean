import ThreadKit.Machine.Begin

/-! Forking the process. The child is a process of its own, whose only thread is the forking one as
the fork hook leaves it. It runs the steps the test driver runs in a child: it asks who it is, then
makes, starts and joins a thread of its own, counting thread objects on from the parent's count.
What the fork reports is read off the child's replies once it has run. -/
namespace ThreadKit

open Script

namespace World

/-- The steps a forked child runs: `current`, then make, start and join a thread named
`post-fork`. -/
def forkProbe : List Value :=
  [.obj [("op", .str "current")],
   .obj [("op", .str "thread_new"), ("id", .str "post-fork"), ("name", .str "post-fork")],
   .obj [("op", .str "thread_start"), ("thread", .str "post-fork")],
   .obj [("op", .str "thread_join"), ("thread", .str "post-fork")]]

/-- The child that context `x` forks, before it runs: its thread and its process have the tid
`w.nextTid`, it has made as many thread objects as the parent, and it holds no object yet. -/
def forkChild (w : World) (x : Context) : World :=
  let (self, process) := x.self.forkChild w.process w.nextTid
  { host := w.host, process, created := w.created, nextTid := w.nextTid + 1, clock := w.clock,
    main := { self, osName := x.osName, scope := {}, plan := forkProbe } }

/-- What a fork by a thread whose tid was `before`, and is `after`, reports of a child that ran to
`e`: what the child's `current` found, whether the thread it started published a positive tid
other than the child's and returned, and whether the child ended without an abort. A child that did
not answer its steps so reports nothing found. -/
def forkReport (before after : Tid) (e : World) : Identity.ForkReport :=
  let child : Identity.ChildReport :=
    match e.main.replies with
    | [.current r, _, .started t, .records _] =>
      { tidChanged := r.tid != before, tidIsPid := r.tid == e.process.pid, isMain := r.isMain,
        name := r.name, textFresh := r.shape, threadOk := 0 < t && t != r.tid }
    | _ => default
  { child, childExitedNormally := e.abort.isNone && e.main.ended.isSome,
    parentTidUnchanged := after == before }

/-- The world after context `c`, in state `x` with the fork taken off its code, learns that its
child ran to `e`: it asks for its tid again and replies with what the fork reports. -/
def forked (w : World) (c : Ctx) (x : Context) (before : Tid) (e : World) : World :=
  let (after, x, p) := x.requestTid w.process
  { w with process := p }.reply c x (.fork (forkReport before after e))

end World

end ThreadKit
