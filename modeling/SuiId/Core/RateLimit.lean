import SuiId.Lib.FixedWindow
import SuiId.Lib.Table
import SuiId.Store.Crypto

/-!
# The rate limiter

`runtime/ratelimit.rs`.  A limiter keeps one fixed window for each pair of a route key and a caller.
When it holds more than 1024 of them, a call first drops those that began more than four widths
ago.  A denial says how many whole seconds are left of the window, and one at least.

The mutex makes a call one step.  Instants and durations are taken as unbounded.
-/

namespace SuiId.RateLimit

open Lib

/-- The window of a limiter. -/
abbrev Window := FixedWindow.Window DateTime

variable {κ : Type} [DecidableEq κ]

/-- `Limiter`, without its state. -/
structure Limiter where
  perWindow : Int
  windowSecs : Int

/-- The window, in units of the clock. -/
def Limiter.window (limiter : Limiter) : Int := seconds limiter.windowSecs

/-- `Decision`. -/
structure Decision where
  allowed : Bool
  remaining : Int
  retryAfterSecs : Int
deriving DecidableEq

/-- An entry of the map.  Its key is a route key with the id of a caller. -/
structure Entry (κ : Type) where
  key : κ
  window : Window

/-- The windows of all keys. -/
abbrev State (κ : Type) := Table (@Entry.key κ)

namespace Limiter

variable (limiter : Limiter)

/-- Drop the entries whose window has long since closed. -/
def prune (state : State κ) (now : DateTime) : State κ :=
  if 1024 < state.rows.length then
    state.delete fun e => e.window.startedAt < now - limiter.window * 4
  else state

/-- A window that is over begins anew. -/
def renew (entry : Window) (now : DateTime) : Window :=
  if limiter.window ≤ now - entry.startedAt then ⟨now, 0⟩ else entry

/-- Admit and count, or deny. -/
def decide (entry : Window) (now : DateTime) : Window × Decision :=
  if limiter.perWindow ≤ entry.count then
    let retryAfter := max (numSeconds (entry.startedAt + limiter.window - now)) 1
    (entry, ⟨false, 0, retryAfter⟩)
  else
    let entry := { entry with count := entry.count + 1 }
    (entry, ⟨true, max (limiter.perWindow - entry.count) 0, 0⟩)

/-- `check`. -/
def check (state : State κ) (key : κ) (now : DateTime) : State κ × Decision :=
  let state := limiter.prune state now
  let entry := ((state.get? key).map (·.window)).getD ⟨now, 0⟩
  let (entry, decision) := limiter.decide (limiter.renew entry now) now
  (state.upsert ⟨key, entry⟩, decision)

end Limiter

/-! ## Runs -/

/-- A call of `check`. -/
structure Call (κ : Type) where
  key : κ
  now : DateTime

/-- One call. -/
def step (limiter : Limiter) (state : State κ) (call : Call κ) : State κ × Decision :=
  limiter.check state call.key call.now

/-- The window of a pair. -/
def State.window (state : State κ) (key : κ) : Option Window := (state.get? key).map (·.window)

end SuiId.RateLimit
