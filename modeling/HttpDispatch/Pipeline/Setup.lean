import HttpDispatch.Pipeline.Dispatcher
import HttpDispatch.Settings

/-!
# Setting up a dispatcher

A dispatcher is set up from what it is provided with, one thing after the other: settings, a wiring
made from registrations, filters and error handlers. Of settings and wirings the last ones count.
Without a wiring there is the built-in one, with the query parameter that the settings name.
-/

namespace HttpDispatch

variable {σ : Type}

/-- One thing that a dispatcher is provided with. -/
inductive Provision (σ : Type) where
  | settings (s : DispatcherSettings)
  | wiring (registered : List (Registration σ))
  | filter (f : Filter σ)
  | errorHandler (h : ErrorHandler σ)

/-- What a dispatcher is set up from. -/
structure Setup (σ : Type) where
  settings : DispatcherSettings
  wiring? : Option (Wiring σ)
  filters : List (Filter σ)
  errorHandlers : List (ErrorHandler σ)

namespace Setup

/-- Nothing provided. -/
def empty : Setup σ := ⟨{}, none, [], []⟩

/-- Enters one thing after all others. -/
def enter (s : Setup σ) : Provision σ → Setup σ
  | .settings settings => { s with settings }
  | .wiring registered => { s with wiring? := some (.ofList registered) }
  | .filter f => { s with filters := s.filters ++ [f] }
  | .errorHandler h => { s with errorHandlers := s.errorHandlers ++ [h] }

/-- The dispatcher that is set up. -/
def dispatcher (s : Setup σ) : Dispatcher σ :=
  .of (s.wiring?.getD (.default s.settings.formatParameter)) s.filters s.errorHandlers
    s.settings.includeErrorCauses

end Setup

/-- The dispatcher of everything that is provided, without routes. -/
def Dispatcher.ofList (l : List (Provision σ)) : Dispatcher σ :=
  (l.foldl Setup.enter .empty).dispatcher

end HttpDispatch
