import EffectLoop.Json.Writer

/-!
# Failures

Three kinds of failure, by who reports them: a builder refuses its arguments, a RUN function fails,
or the execution of a command fails.
-/

namespace EffectLoop

/-- A builder refuses its arguments. -/
inductive Refusal where
  | invalidArgument (builder reason : String)
  /-- The option that skips validation is only for tests. -/
  | testInvariantsInProduction (builder : String)
  deriving DecidableEq

/-- What a refused builder says. -/
def Refusal.message : Refusal → String
  | invalidArgument builder reason => builder ++ ": " ++ reason
  | testInvariantsInProduction builder =>
      builder ++ ": the test_invariants option was used in a production build, " ++
        "it is only meant for tests"

/-- A RUN function fails, when it is called or later. -/
inductive RunFailure where
  | message (text : String)
  | failed (payload : Json)

/-- What a failed RUN function says. -/
def RunFailure.text : RunFailure → String
  | message text => text
  | failed payload => "run failed with " ++ payload.text

/-- The execution of a command fails. -/
inductive CmdFailure where
  /-- A RUN function failed when it was called, and its command has no fail creator. -/
  | unhandledFailure (cause : RunFailure)
  /-- The store that should reduce an action is gone. -/
  | storeClosed

/-- What a failed execution says. -/
def CmdFailure.message : CmdFailure → String
  | unhandledFailure cause => "unhandled failure in Cmd::run: " ++ cause.text
  | storeClosed => "dispatch called after its store was dropped"

/-- The document of an error: its name and what it says. -/
def errorDocument (name message : String) : Json :=
  Json.ofFields [("error", .string name), ("message", .string message)]

/-- The document of a refused builder. -/
def Refusal.encode (refused : Refusal) : Json :=
  let name := match refused with
    | invalidArgument _ _ => "InvalidArgument"
    | testInvariantsInProduction _ => "TestInvariantsInProduction"
  errorDocument name refused.message

/-- The document of a failed execution. -/
def CmdFailure.encode (failure : CmdFailure) : Json :=
  let name := match failure with
    | unhandledFailure _ => "UnhandledFailure"
    | storeClosed => "StoreClosed"
  errorDocument name failure.message

end EffectLoop
