import FaultSnapshot.Tracer.Monitor

/-!
# Panics

A panic first runs the panic hooks on its thread, with all frames still open, and then unwinds. A
panic inside a hook, or out of what runs while another panic unwinds, aborts the program.
-/

namespace FaultSnapshot

variable {P : Program}

namespace Panic

/-- Changes what is known of the panics of a thread. -/
def setUnwinding (thread : Thread) (f : Unwinding → Unwinding) : Run P Unit :=
  modify fun w => { w with unwinding := w.unwinding.insert thread (f (w.unwindingOf thread)) }

def isUnwinding (thread : Thread) : Run P Bool := do
  return 0 < ((← get).unwindingOf thread).depth

/-- The hook of one monitor: the panic is reported as a new error. -/
def report (exec : Exec P) (site : Site) (e : PanicError) (m : Monitor P) : Run P Unit := do
  match ← m.onError exec site "panic" (← Run.newError (.panicked e)) with
  | .ok () => return ()
  | .error f => Run.log .warn .panicHook [] ("Failed to report panic: " ++ f.message)

/-- Runs the hooks, the one installed last first, and below them the hook that was there before. -/
def runHooks (exec : Exec P) (hooks : List (Monitor P)) (site : Site) (e : PanicError) : Run P Unit := do
  hooks.reverse.forM (report exec site e)
  modify fun w => { w with lastHookRuns := site.thread :: w.lastHookRuns }

def raise {α : Type} (exec : Exec P) (hooks : List (Monitor P)) (site : Site) (payload : PanicPayload)
    (location : Option String) : Run P α := do
  if ((← get).unwindingOf site.thread).inHook then throw .abort
  setUnwinding site.thread fun u => ⟨u.depth + 1, true⟩
  runHooks exec hooks site ⟨payload.message, location⟩
  setUnwinding site.thread fun u => { u with inHook := false }
  throw (.panic payload)

/-- Catches a panic of a run on a thread. -/
def catching {α : Type} (thread : Thread) (run : Run P α) : Run P (Except PanicPayload α) :=
  tryCatch (do return .ok (← run)) fun
    | .panic payload => do
      setUnwinding thread fun u => { u with depth := u.depth - 1 }
      return .error payload
    | other => throw other

/-- Runs what closes something while a panic unwinds: a panic out of it aborts the program. -/
def whileUnwinding (close : Run P Unit) : Run P Unit :=
  tryCatch close fun
    | .panic _ => throw .abort
    | other => throw other

/-- Runs something and then closes it, also when a panic unwinds. -/
def closingAfter {α : Type} (run : Run P α) (close : Run P Unit) : Run P α := do
  let result ← tryCatch run fun
    | .panic payload => do
      whileUnwinding close
      throw (.panic payload)
    | other => throw other
  close
  return result

/-- Installs the hook of a monitor above the others. -/
def install (hooks : List (Monitor P)) (m : Monitor P) : Run P (List (Monitor P)) := do
  Run.log .info .panicHook [] "Snaperr panic hook installed"
  return hooks ++ [m]

end Panic

end FaultSnapshot
