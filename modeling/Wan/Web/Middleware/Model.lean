import Wan.Library.StableSort

/-!
# The middleware chain of `Web/Middleware/Middleware.hpp`

A middleware is a coroutine that may await `Next` any number of times.  `Activity` is
what it does from one await to the next, as a function of the request context it finds
and of how `Next` ended.  `Run` keeps one index for all frames of the chain; the events
it leaves record which frame did what.
-/

namespace Wan.Web.Onion

variable {Context Exception : Type}

/-- How a coroutine ends: it returns or throws. -/
abbrev Outcome (Exception : Type) := Except Exception Unit

/-- What a coroutine that may await `Next` has still to do. -/
inductive Activity (Context Exception : Type) where
  | finish (ctx : Context) (outcome : Outcome Exception)
  | next (ctx : Context) (resume : Context → Outcome Exception → Activity Context Exception)

/-- `Handler`. -/
abbrev Handler (Context Exception : Type) := Context → Context × Outcome Exception

/-- `MiddlewareFn`. -/
abbrev MiddlewareFn (Context Exception : Type) := Context → Activity Context Exception

/-- `Middleware`. -/
structure Middleware (Context Exception : Type) where
  fn : MiddlewareFn Context Exception
  priority : Int := 0
  name : String := ""

/-- `MiddlewareChain`. -/
structure MiddlewareChain (Context Exception : Type) where
  memberMiddlewares : List (Middleware Context Exception) := []

/-- What happens while a chain runs. Middlewares are named by their position in the chain. -/
inductive Event (Exception : Type) where
  | invoked (position : Nat)
  | called (position : Nat)
  | resumed (position : Nat) (inner : Outcome Exception)
  | left (position : Nat) (outcome : Outcome Exception)
  | handled (outcome : Outcome Exception)

/-- What the frames of one `Run` share, and the events so far. -/
structure Running (Context Exception : Type) where
  index : Nat := 0
  ctx : Context
  trace : List (Event Exception) := []

/-- Append an event. -/
def Running.record (running : Running Context Exception) (event : Event Exception) :
    Running Context Exception :=
  { running with trace := running.trace ++ [event] }

/-- How a frame ended, and what it left to the others. -/
abbrev Ended (Context Exception : Type) :=
  Outcome Exception × Running Context Exception

/-- Let the middleware at a position do what it has to do. -/
def Activity.drive (next : Running Context Exception → Option (Ended Context Exception))
    (position : Nat) :
    Activity Context Exception → Running Context Exception → Option (Ended Context Exception)
  | .finish ctx outcome, running =>
      some (outcome, { running with ctx }.record (.left position outcome))
  | .next ctx resume, running => do
      let (inner, running) ← next ({ running with ctx }.record (.called position))
      (resume running.ctx inner).drive next position (running.record (.resumed position inner))

namespace MiddlewareChain

open Wan.Library

/-- `Use` of a middleware: `std::stable_sort` with the `operator<` of `Middleware`. -/
def use (chain : MiddlewareChain Context Exception) (m : Middleware Context Exception) :
    MiddlewareChain Context Exception :=
  ⟨(chain.memberMiddlewares ++ [m]).insertionSort (NotAfter Middleware.priority)⟩

/-- `Use` of a function. -/
def useFn (chain : MiddlewareChain Context Exception) (fn : MiddlewareFn Context Exception)
    (priority : Int := 0) (name : String := "") : MiddlewareChain Context Exception :=
  chain.use ⟨fn, priority, name⟩

/-- `Empty`. -/
def empty (chain : MiddlewareChain Context Exception) : Bool := chain.memberMiddlewares.isEmpty

/-- `Size`. -/
def size (chain : MiddlewareChain Context Exception) : Nat := chain.memberMiddlewares.length

/-- Invoke the final handler. -/
def handle (finalHandler : Handler Context Exception) (running : Running Context Exception) :
    Option (Ended Context Exception) :=
  let (ctx, outcome) := finalHandler running.ctx
  some (outcome, { running with ctx }.record (.handled outcome))

/-- The closure `Next` of `Run`, up to a depth of nested calls. -/
def next (chain : MiddlewareChain Context Exception) (finalHandler : Handler Context Exception) :
    Nat → Running Context Exception → Option (Ended Context Exception)
  | 0, _ => none
  | depth + 1, running =>
      match chain.memberMiddlewares[running.index]? with
      | some mw =>
          let position := running.index
          (mw.fn running.ctx).drive (chain.next finalHandler depth) position
            ({ running with index := position + 1 }.record (.invoked position))
      | none => handle finalHandler running

/-- `Run`. -/
def run (chain : MiddlewareChain Context Exception) (ctx : Context)
    (finalHandler : Handler Context Exception) : Option (Ended Context Exception) :=
  if chain.empty then
    handle finalHandler { ctx }
  else
    chain.next finalHandler (chain.size + 1) { ctx }

end MiddlewareChain

end Wan.Web.Onion
