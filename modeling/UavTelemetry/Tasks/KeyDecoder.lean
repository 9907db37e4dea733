import Mathlib.Data.List.FinRange
import UavTelemetry.Rtx.EventLoop
import UavTelemetry.Tasks.Topics

/-!
# The loop of `KeyDecoder`

`KeyDecoder` waits for the edges of twelve keys, reads the keyboard after a debounce delay and
publishes what it read as the topic `/keyb`.  While a key is held it publishes again after
`repeatTimeout`.

## Main definitions

* `KeyDecoder.Stmt`, `KeyDecoder.body` : the statements of the loop and the order in which they
  run.
* `KeyDecoder.loop` : the loop as an event loop.
-/

namespace UavTelemetry

open Rtx

namespace KeyDecoder

/-- `KEY_EV_PRESSED`. -/
def keyEvPressed : Flags := 1 <<< 0

/-- `KEY_EV_RELEASED`. -/
def keyEvReleased : Flags := 1 <<< 1

/-- Milliseconds after which a held key is published again (`REPEAT_TIMEOUT`). -/
def repeatTimeout : ℕ := 200

/-- Milliseconds of the debounce delay. -/
def debounce : ℕ := 50

/-- The number of keys; key `i` reports as bit `i` of the key code. -/
def numKeys : ℕ := 12

/-- The statements of the loop. -/
inductive Stmt
  /-- `Thread::wait(millisec)`. -/
  | delay (millisec : ℕ)
  /-- `_th->signal_clr(signals)`. -/
  | signalClr (signals : Flags)
  /-- `uint32_t result = KEY_NONE` in `readKeyboard`. -/
  | readStart
  /-- `if (pin->read() == 0) result |= key` in `readKeyboard`. -/
  | readPin (i : Fin numKeys)
  /-- `_currentkey = result`. -/
  | storeKey
  /-- `_keydata.data.keycode = (_currentkey ^ _lastkey)`. -/
  | setKeydata
  /-- `_timeout` becomes `osWaitForever` without a key held and `REPEAT_TIMEOUT` with one. -/
  | setTimeout
  /-- `MsgBroker::publish("/keyb", &_keydata, sizeof(Topic::KeyData_t), &e)`. -/
  | publish
  deriving DecidableEq, Repr

/-- `_currentkey = readKeyboard()`. -/
def readKeyboard : List Stmt :=
  .readStart :: (List.finRange numKeys).map .readPin ++ [.storeKey]

/-- The branch for an edge of a key. -/
def edgeBranch : List Stmt :=
  .signalClr (keyEvPressed ||| keyEvReleased) :: readKeyboard ++ [.setKeydata, .setTimeout]

/-- The branch for a repeated event. -/
def repeatBranch : List Stmt := readKeyboard ++ [.setTimeout]

/-- The body of the loop.  The local variable `publish` is set in both branches. -/
def body (oe : OsEvent) : List Stmt :=
  .delay debounce ::
    ((if oe.signalled (keyEvPressed ||| keyEvReleased) then edgeBranch else []) ++
    (if oe.status = .osEventTimeout then repeatBranch else []) ++
    (if oe.signalled (keyEvPressed ||| keyEvReleased) ∨ oe.status = .osEventTimeout then
      [.publish] else []))

/-- The body of the loop is the branch for an edge, the one for a repeated event, or neither. -/
theorem body_cases (oe : OsEvent) :
    (oe.signalled (keyEvPressed ||| keyEvReleased) = true ∧
        body oe = .delay debounce :: (edgeBranch ++ [.publish])) ∨
      (oe.signalled (keyEvPressed ||| keyEvReleased) = false ∧
        (body oe = .delay debounce :: (repeatBranch ++ [.publish]) ∨
          body oe = [.delay debounce])) := by
  unfold body
  by_cases hsignal : oe.signalled (keyEvPressed ||| keyEvReleased) = true
  -- the two branches exclude each other
  · have htimeout : oe.status ≠ .osEventTimeout := by
      intro h
      simp [OsEvent.signalled, h] at hsignal
    exact Or.inl ⟨hsignal, by simp [hsignal, htimeout]⟩
  · refine Or.inr ⟨by simpa using hsignal, ?_⟩
    by_cases htimeout : oe.status = .osEventTimeout
    · exact Or.inl (by simp [hsignal, htimeout])
    · exact Or.inr (by simp [hsignal, htimeout])

/-- The flags that a statement clears. -/
def Stmt.clr : Stmt → Flags
  | .signalClr signals => signals
  | _ => 0

/-- The event loop: it starts with `_timeout` at `osWaitForever`, and sets it in `setTimeout`. -/
def loop : EventLoop Stmt where
  events := keyEvPressed ||| keyEvReleased
  signals := 0b11
  timeouts := [osWaitForever, repeatTimeout]
  body := body
  next _ := [[]]
  clr := Stmt.clr
  signals_eq := by decide
  events_ne := by decide
  timeouts_ne := by decide

end KeyDecoder

end UavTelemetry
