import Mathlib.Data.List.FinRange
import UavTelemetry.Data.Store

/-!
# Pin interrupts

The sixteen interrupt lines of the pins reach the processor over seven vectors: the lines `0` to
`4` have their own, and the lines `5` to `9` and `10` to `15` share one.  The driver keeps a table
for each vector, in which a pin occupies the place of its number in the group; pins of different
ports that have the same number share a line and a place.  A handler goes over the table, clears
the flags that it finds raised and tells the object of the pin which edge it was, by the level that
the pin has by then.

What the tables stand for is a map from lines to objects.  The driver is compared with that map over
any sequence of constructions, destructions, edges and interrupts.

## Main definitions

* `GpioChannel`, `Exti` : the tables and the registers of the driver.
* `Exti.gpioIrqInit`, `Exti.gpioIrqFree`, `GpioIrq.gpioIrqSet`, `Exti.handleInterruptIn` : the
  functions of the driver.
* `Registry` : the map from lines to objects.

## Main results

* `Exti.answers_registry` : the driver answers as the map does.
-/

namespace UavTelemetry

namespace Hal

/-! ### The driver -/

/-- A pin: its port and its number. -/
structure PinName where
  /-- Index of the port: `Set_GPIO_Clock` stops the program at any other. -/
  port : Fin 4
  /-- Number in the port. -/
  pin : Fin 16
  deriving DecidableEq, Repr

/-- The pin with a value of `PinName`, by `STM_PORT` and `STM_PIN`. -/
def pinName (x : ℕ) : PinName := ⟨Fin.ofNat 4 (x >>> 4), Fin.ofNat 16 x⟩

/-- `gpio_irq_event`, as far as it is passed to handlers. -/
inductive GpioIrqEvent
  | irqRise
  | irqFall
  deriving DecidableEq, Repr

/-- `EDGE_NONE`, `EDGE_RISE`, `EDGE_FALL`, `EDGE_BOTH`. -/
inductive Edge
  | none
  | rise
  | fall
  | both
  deriving DecidableEq, Repr

/-- The modes that are programmed for pins. -/
inductive Mode
  | input
  | itEvtReset
  | itRising
  | itFalling
  | itRisingFalling
  deriving DecidableEq, Repr

/-- `gpio_channel_t`, with objects `ι`. -/
structure GpioChannel (ι : Type) where
  /-- Which places are configured for receiving interrupts. -/
  pinMask : BitVec 32
  /-- The objects. -/
  channelIds : Fin 6 → Option ι
  /-- The ports. -/
  channelGpio : Fin 6 → Option (Fin 4)
  /-- The pin numbers. -/
  channelPin : Fin 6 → Fin 16

/-- `gpio_irq_t`. -/
structure GpioIrq where
  /-- Index of the vector. -/
  irqIndex : Fin 7
  /-- The edges that raise interrupts. -/
  event : Edge
  /-- The pin. -/
  pin : PinName
  deriving DecidableEq, Repr

/-- The driver: its tables, the objects, and the registers that it reads. -/
structure Exti (ι : Type) where
  /-- `channels`. -/
  channels : Fin 7 → GpioChannel ι
  /-- `gpio_irq` of the objects. -/
  objs : ι → GpioIrq
  /-- `EXTI->PR`: the lines that are pending. -/
  pr : Fin 16 → Bool
  /-- `GPIOx->IDR`: the levels of the pins of a port. -/
  idr : Fin 4 → Fin 16 → Bool

/-- The `switch` of `gpio_irq_init`. -/
def irqIndex (pin : Fin 16) : Fin 7 :=
  #v[0, 1, 2, 3, 4, 5, 5, 5, 5, 5, 6, 6, 6, 6, 6, 6].get pin

/-- `pin_base_nr`. -/
def pinBaseNr (pin : Fin 16) : Fin 6 :=
  #v[0, 0, 0, 0, 0, 0, 1, 2, 3, 4, 0, 1, 2, 3, 4, 5].get pin

/-- The number of places that `gpio_irq0`, ..., `gpio_irq6` go over. -/
def maxNumPinLine (irq : Fin 7) : ℕ := #v[1, 1, 1, 1, 1, 5, 6].get irq

/-- `gpio_irq_set`: the mode that it programs, and the object afterwards. -/
def GpioIrq.gpioIrqSet (obj : GpioIrq) (event : GpioIrqEvent) (enable : Bool) : Mode × GpioIrq :=
  if enable then
    match event with
    | .irqRise =>
      if obj.event = .fall ∨ obj.event = .both then (.itRisingFalling, { obj with event := .both })
      else (.itRising, { obj with event := .rise })
    | .irqFall =>
      if obj.event = .rise ∨ obj.event = .both then (.itRisingFalling, { obj with event := .both })
      else (.itFalling, { obj with event := .fall })
  else
    match event with
    | .irqRise =>
      if obj.event = .fall ∨ obj.event = .both then (.itFalling, { obj with event := .fall })
      else (.itEvtReset, { obj with event := .none })
    | .irqFall =>
      if obj.event = .rise ∨ obj.event = .both then (.itRising, { obj with event := .rise })
      else (.itEvtReset, { obj with event := .none })

/-- `gpio_init_in`, at the end of the constructor of `InterruptIn`: the modes that `gpio_set` and
`gpio_dir` program. -/
def gpioInitIn : List Mode := [.input, .input]

namespace Exti

variable {ι : Type} [DecidableEq ι]

/-- The tables are empty, and no object has been constructed. -/
def init : Exti ι where
  channels _ := ⟨0, fun _ => none, fun _ => none, fun _ => 0⟩
  objs _ := ⟨0, .none, 0, 0⟩
  pr _ := false
  idr _ _ := false

/-- `gpio_irq_init`, in the constructor of `InterruptIn`, which has cleared `gpio_irq`. -/
def gpioIrqInit (e : Exti ι) (id : ι) (pin : PinName) : Exti ι :=
  let ch := e.channels (irqIndex pin.pin)
  let gpioIdx := pinBaseNr pin.pin
  { e with
    objs := Function.update e.objs id ⟨irqIndex pin.pin, .none, pin⟩
    channels := Function.update e.channels (irqIndex pin.pin)
      { pinMask := ch.pinMask ||| 1#32 <<< gpioIdx.val
        channelIds := Function.update ch.channelIds gpioIdx (some id)
        channelGpio := Function.update ch.channelGpio gpioIdx (some pin.port)
        channelPin := Function.update ch.channelPin gpioIdx pin.pin } }

/-- `gpio_irq_free`, in the destructor of `InterruptIn`. -/
def gpioIrqFree (e : Exti ι) (id : ι) : Exti ι :=
  let obj := e.objs id
  let ch := e.channels obj.irqIndex
  let gpioIdx := pinBaseNr obj.pin.pin
  { e with
    objs := Function.update e.objs id { obj with event := .none }
    channels := Function.update e.channels obj.irqIndex
      { pinMask := ch.pinMask &&& ~~~(1#32 <<< gpioIdx.val)
        channelIds := Function.update ch.channelIds gpioIdx none
        channelGpio := Function.update ch.channelGpio gpioIdx none
        channelPin := Function.update ch.channelPin gpioIdx 0 } }

/-- A turn of the loop in `handle_interrupt_in`, with the call of `irq_handler` if there is one. -/
def handlePlace (e : Exti ι) (irq : Fin 7) (gpioIdx : Fin 6) :
    Except Fault (List (ι × GpioIrqEvent) × Exti ι) :=
  let ch := e.channels irq
  if ch.pinMask &&& 1#32 <<< gpioIdx.val = 0 then .ok ([], e)
  else
    let pin := ch.channelPin gpioIdx
    if e.pr pin then
      let e := { e with pr := Function.update e.pr pin false }
      match ch.channelIds gpioIdx, ch.channelGpio gpioIdx with
      | none, _ => .ok ([], e)
      | some _, none => .error .nullPointer
      | some id, some gpio => .ok ([(id, if e.idr gpio pin then .irqRise else .irqFall)], e)
    else .ok ([], e)

/-- The loop in `handle_interrupt_in`, over the places that are left. -/
def handleLoop (irq : Fin 7) :
    List (Fin 6) → Exti ι → Except Fault (List (ι × GpioIrqEvent) × Exti ι)
  | [], e => .ok ([], e)
  | gpioIdx :: idxs, e => do
    let (handled, e) ← e.handlePlace irq gpioIdx
    let (rest, e) ← handleLoop irq idxs e
    return (handled ++ rest, e)

/-- `handle_interrupt_in`, as the handler of a vector calls it. -/
def handleInterruptIn (e : Exti ι) (irq : Fin 7) :
    Except Fault (List (ι × GpioIrqEvent) × Exti ι) :=
  handleLoop irq ((List.finRange 6).take (maxNumPinLine irq)) e

end Exti

/-- What happens to the driver. -/
inductive Call (ι : Type)
  /-- `InterruptIn::InterruptIn`, with a pin or with `NC`. -/
  | construct (id : ι) (pin : Option PinName)
  /-- `InterruptIn::~InterruptIn`. -/
  | destroy (id : ι)
  /-- `InterruptIn::rise` and `InterruptIn::fall`, with a function or with `NULL`. -/
  | attach (id : ι) (event : GpioIrqEvent) (enable : Bool)
  /-- A line becomes pending. -/
  | raise (line : Fin 16)
  /-- A pin changes its level. -/
  | drive (pin : PinName) (level : Bool)
  /-- The interrupt of a vector. -/
  | interrupt (irq : Fin 7)
  deriving DecidableEq, Repr

/-- What the driver does in answer. -/
inductive Answer (ι : Type)
  | done
  /-- The modes that are programmed for a pin, one after the other. -/
  | modes (pin : PinName) (modes : List Mode)
  /-- The calls of `irq_handler`. -/
  | handled (calls : List (ι × GpioIrqEvent))
  deriving DecidableEq, Repr

namespace Exti

variable {ι : Type} [DecidableEq ι]

/-- The driver answers a call. -/
def call (e : Exti ι) : Call ι → Except Fault (Answer ι × Exti ι)
  -- `gpio_irq` stays clear, and its pin is `PA_0`
  | .construct id none =>
    .ok (.done, { e with objs := Function.update e.objs id ⟨0, .none, 0, 0⟩ })
  | .construct id (some pin) =>
    .ok (.modes pin (.itFalling :: gpioInitIn), e.gpioIrqInit id pin)
  | .destroy id => .ok (.modes (e.objs id).pin [.input], e.gpioIrqFree id)
  | .attach id event enable =>
    let (mode, obj) := (e.objs id).gpioIrqSet event enable
    .ok (.modes obj.pin [mode], { e with objs := Function.update e.objs id obj })
  | .raise line => .ok (.done, { e with pr := Function.update e.pr line true })
  | .drive pin level => .ok (.done, { e with
      idr := Function.update e.idr pin.port (Function.update (e.idr pin.port) pin.pin level) })
  | .interrupt irq => do
    let (calls, e) ← e.handleInterruptIn irq
    return (.handled calls, e)

/-- The answers to a sequence of calls. -/
def answers : Exti ι → List (Call ι) → Except Fault (List (Answer ι))
  | _, [] => .ok []
  | e, c :: cs => do
    let (a, e) ← e.call c
    let as ← answers e cs
    return a :: as

end Exti

/-! ### The map -/

/-- Which edges raise interrupts. -/
structure Edges where
  rise : Bool
  fall : Bool
  deriving DecidableEq, Repr

/-- One of the edges is switched on or off. -/
def Edges.set (x : Edges) (event : GpioIrqEvent) (enable : Bool) : Edges :=
  match event with
  | .irqRise => { x with rise := enable }
  | .irqFall => { x with fall := enable }

/-- The mode in which just these edges raise interrupts. -/
def Edges.mode : Edges → Mode
  | ⟨false, false⟩ => .itEvtReset
  | ⟨true, false⟩ => .itRising
  | ⟨false, true⟩ => .itFalling
  | ⟨true, true⟩ => .itRisingFalling

/-- The lines of a vector. -/
def linesOf (irq : Fin 7) : List (Fin 16) :=
  (List.finRange 16).filter fun line => irqIndex line = irq

/-- What the tables stand for. -/
structure Registry (ι : Type) where
  /-- The object that listens to a line, and the port of its pin. -/
  reg : Fin 16 → Option (ι × Fin 4)
  /-- The pins of the objects. -/
  pins : ι → PinName
  /-- The edges that the objects ask for. -/
  edges : ι → Edges
  /-- The lines that are pending. -/
  pr : Fin 16 → Bool
  /-- The levels of the pins of a port. -/
  idr : Fin 4 → Fin 16 → Bool

namespace Registry

variable {ι : Type} [DecidableEq ι]

/-- Nobody listens. -/
def init : Registry ι where
  reg _ := none
  pins _ := ⟨0, 0⟩
  edges _ := ⟨false, false⟩
  pr _ := false
  idr _ _ := false

/-- Who is told of a line, and of which edge: nobody if it is not pending or nobody listens. -/
def told (r : Registry ι) (line : Fin 16) : Option (ι × GpioIrqEvent) :=
  if r.pr line then
    (r.reg line).map fun x => (x.1, if r.idr x.2 line then .irqRise else .irqFall)
  else none

/-- The lines among `lines` to which somebody listens are not pending any more. -/
def clear (r : Registry ι) (lines : List (Fin 16)) : Registry ι :=
  { r with pr := fun line => r.pr line && !(decide (line ∈ lines) && (r.reg line).isSome) }

/-- The map answers a call. -/
def call (r : Registry ι) : Call ι → Answer ι × Registry ι
  | .construct id none => (.done, { r with
      pins := Function.update r.pins id ⟨0, 0⟩
      edges := Function.update r.edges id ⟨false, false⟩ })
  | .construct id (some pin) => (.modes pin [.itFalling, .input, .input], { r with
      reg := Function.update r.reg pin.pin (some (id, pin.port))
      pins := Function.update r.pins id pin
      edges := Function.update r.edges id ⟨false, false⟩ })
  | .destroy id => (.modes (r.pins id) [.input], { r with
      reg := Function.update r.reg (r.pins id).pin none
      edges := Function.update r.edges id ⟨false, false⟩ })
  | .attach id event enable =>
    let edges := (r.edges id).set event enable
    (.modes (r.pins id) [edges.mode], { r with edges := Function.update r.edges id edges })
  | .raise line => (.done, { r with pr := Function.update r.pr line true })
  | .drive pin level => (.done, { r with
      idr := Function.update r.idr pin.port (Function.update (r.idr pin.port) pin.pin level) })
  | .interrupt irq => (.handled ((linesOf irq).filterMap r.told), r.clear (linesOf irq))

/-- The answers to a sequence of calls. -/
def answers : Registry ι → List (Call ι) → List (Answer ι)
  | _, [] => []
  | r, c :: cs => (r.call c).1 :: answers (r.call c).2 cs

end Registry

/-! ### Places and lines -/

/-- Two lines of a vector have different places. -/
theorem place_injective {line line' : Fin 16} (h : irqIndex line = irqIndex line')
    (h' : pinBaseNr line = pinBaseNr line') : line = line' := by
  revert line line'
  decide

/-- A handler goes over the places of the lines of its vector. -/
theorem places_eq (irq : Fin 7) :
    (List.finRange 6).take (maxNumPinLine irq) = (linesOf irq).map pinBaseNr := by
  revert irq
  decide

theorem mem_linesOf {irq : Fin 7} {line : Fin 16} : line ∈ linesOf irq ↔ irqIndex line = irq := by
  simp [linesOf]

theorem nodup_linesOf (irq : Fin 7) : (linesOf irq).Nodup :=
  (List.nodup_finRange 16).filter _

namespace Registry

variable {ι : Type}

theorem clear_eq (r : Registry ι) (lines : List (Fin 16))
    (h : ∀ line ∈ lines, r.pr line = true → r.reg line = none) : r.clear lines = r := by
  have hpr : (r.clear lines).pr = r.pr := by
    funext line
    by_cases hmem : line ∈ lines
    · cases hline : r.pr line with
      | false => simp [clear, hline]
      | true => simp [clear, hline, h line hmem hline]
    · simp [clear, hmem]
  unfold clear at hpr ⊢
  simp only at hpr
  rw [hpr]

theorem clear_cons (r : Registry ι) (line : Fin 16) (lines : List (Fin 16)) :
    (r.clear [line]).clear lines = r.clear (line :: lines) := by
  have hpr : ((r.clear [line]).clear lines).pr = (r.clear (line :: lines)).pr := by
    funext line'
    by_cases heq : line' = line
    · subst heq
      cases hreg : r.reg line' with
      | none => simp [clear, hreg]
      | some x => simp [clear, hreg]
    · simp [clear, heq]
  unfold clear at hpr ⊢
  simp only at hpr
  rw [hpr]

theorem told_clear (r : Registry ι) {line line' : Fin 16} (h : line' ≠ line) :
    (r.clear [line]).told line' = r.told line' := by
  simp [told, clear, h]

end Registry

/-! ### Masks -/

theorem and_bit_eq_zero_iff (mask : BitVec 32) (k : Fin 6) :
    mask &&& 1#32 <<< k.val = 0 ↔ mask.getLsbD k.val = false := by
  have hk : k.val < 32 := by omega
  rw [← BitVec.twoPow_eq, BitVec.and_twoPow]
  cases mask.getLsbD k.val with
  | false => simp
  | true =>
    refine ⟨fun h => ?_, fun h => by cases h⟩
    have hbit := congrArg (fun x : BitVec 32 => x.getLsbD k.val) h
    simp [hk] at hbit

theorem getLsbD_or_bit (mask : BitVec 32) (j k : Fin 6) :
    (mask ||| 1#32 <<< k.val).getLsbD j.val = (mask.getLsbD j.val || decide (j = k)) := by
  have hj : j.val < 32 := by omega
  have hk : k.val < 32 := by omega
  rw [BitVec.getLsbD_or, ← BitVec.twoPow_eq, BitVec.getLsbD_twoPow]
  simp [hj, hk, Fin.ext_iff, eq_comm]

theorem getLsbD_and_not_bit (mask : BitVec 32) (j k : Fin 6) :
    (mask &&& ~~~(1#32 <<< k.val)).getLsbD j.val = (mask.getLsbD j.val && !decide (j = k)) := by
  have hj : j.val < 32 := by omega
  have hk : k.val < 32 := by omega
  rw [BitVec.getLsbD_and, BitVec.getLsbD_not, ← BitVec.twoPow_eq, BitVec.getLsbD_twoPow]
  simp [hj, hk, Fin.ext_iff, eq_comm]

/-! ### The tables stand for the map -/

/-- The edges that raise interrupts. -/
def Edge.edges : Edge → Edges
  | .none => ⟨false, false⟩
  | .rise => ⟨true, false⟩
  | .fall => ⟨false, true⟩
  | .both => ⟨true, true⟩

/-- **`gpio_irq_set` switches one edge on or off** and leaves the other one alone. -/
theorem GpioIrq.gpioIrqSet_spec (obj : GpioIrq) (event : GpioIrqEvent) (enable : Bool) :
    (obj.gpioIrqSet event enable).1 = (obj.event.edges.set event enable).mode ∧
      (obj.gpioIrqSet event enable).2.event.edges = obj.event.edges.set event enable ∧
      (obj.gpioIrqSet event enable).2.pin = obj.pin ∧
      (obj.gpioIrqSet event enable).2.irqIndex = obj.irqIndex := by
  obtain ⟨irq, edge, pin⟩ := obj
  cases edge <;> cases event <;> cases enable <;> exact ⟨rfl, rfl, rfl, rfl⟩

namespace Exti

variable {ι : Type} [DecidableEq ι]

/-- What the table says about a line: whether its place is configured, and what it holds. -/
def place (e : Exti ι) (line : Fin 16) : Bool × Option ι × Option (Fin 4) × Fin 16 :=
  let ch := e.channels (irqIndex line)
  let gpioIdx := pinBaseNr line
  (ch.pinMask.getLsbD gpioIdx.val, ch.channelIds gpioIdx, ch.channelGpio gpioIdx,
    ch.channelPin gpioIdx)

/-- The driver stands for the map. -/
structure Shows (e : Exti ι) (r : Registry ι) : Prop where
  /-- The place of a line to which nobody listens is not configured. -/
  free : ∀ line, r.reg line = none → (e.place line).1 = false
  /-- The place of a line to which an object listens. -/
  taken : ∀ line id port, r.reg line = some (id, port) →
    e.place line = (true, some id, some port, line)
  /-- The objects have their pins. -/
  pins : ∀ id, (e.objs id).pin = r.pins id
  /-- They know the vectors of their pins. -/
  vectors : ∀ id, (e.objs id).irqIndex = irqIndex (r.pins id).pin
  /-- They have their edges. -/
  edges : ∀ id, (e.objs id).event.edges = r.edges id
  /-- The pending lines. -/
  pr : e.pr = r.pr
  /-- The levels. -/
  idr : e.idr = r.idr

omit [DecidableEq ι] in
theorem shows_init : (init : Exti ι).Shows .init where
  free _ _ := by simp [place, init]
  taken _ _ _ h := by cases h
  pins _ := rfl
  vectors _ := by
    change (0 : Fin 7) = irqIndex 0
    decide
  edges _ := rfl
  pr := rfl
  idr := rfl

/-! ### Constructing and destroying -/

/-- A relation between two families stays when both change at one index. -/
theorem forall_update {α β : Type} {f : ι → α} {g : ι → β} {P : α → β → Prop}
    (h : ∀ i, P (f i) (g i)) (i : ι) {a : α} {b : β} (hab : P a b) :
    ∀ j, P (Function.update f i a j) (Function.update g i b j) := by
  intro j
  by_cases heq : j = i
  · subst heq
    rw [Function.update_self, Function.update_self]
    exact hab
  · rw [Function.update_of_ne heq, Function.update_of_ne heq]
    exact h j

/-- It stays when only the first changes, to something that is related. -/
theorem forall_update_left {α β : Type} {f : ι → α} {g : ι → β} {P : α → β → Prop}
    (h : ∀ i, P (f i) (g i)) (i : ι) {a : α} (hab : P a (g i)) :
    ∀ j, P (Function.update f i a j) (g j) := by
  intro j
  by_cases heq : j = i
  · subst heq
    rw [Function.update_self]
    exact hab
  · rw [Function.update_of_ne heq]
    exact h j

theorem place_gpioIrqInit (e : Exti ι) (id : ι) (pin : PinName) (line : Fin 16) :
    (e.gpioIrqInit id pin).place line =
      if line = pin.pin then (true, some id, some pin.port, pin.pin) else e.place line := by
  unfold place gpioIrqInit
  by_cases hirq : irqIndex line = irqIndex pin.pin
  · rw [hirq]
    simp only [Function.update_self]
    by_cases hline : line = pin.pin
    · subst hline
      rw [if_pos rfl]
      simp only [Function.update_self, getLsbD_or_bit, decide_true, Bool.or_true]
    -- another place of the same table
    · have hplace : pinBaseNr line ≠ pinBaseNr pin.pin := fun h => hline (place_injective hirq h)
      rw [if_neg hline]
      simp only [Function.update_of_ne hplace, getLsbD_or_bit, hplace, decide_false, Bool.or_false]
  · have hline : line ≠ pin.pin := fun h => hirq (congrArg irqIndex h)
    rw [if_neg hline]
    simp only [Function.update_of_ne hirq]

theorem place_gpioIrqFree (e : Exti ι) (id : ι)
    (hirq : (e.objs id).irqIndex = irqIndex (e.objs id).pin.pin) (line : Fin 16) :
    (e.gpioIrqFree id).place line =
      if line = (e.objs id).pin.pin then (false, none, none, 0) else e.place line := by
  simp only [place, gpioIrqFree, hirq]
  generalize (e.objs id).pin.pin = pin
  by_cases hvec : irqIndex line = irqIndex pin
  · rw [hvec]
    simp only [Function.update_self]
    by_cases hline : line = pin
    · subst hline
      rw [if_pos rfl]
      simp only [Function.update_self, getLsbD_and_not_bit, decide_true, Bool.not_true,
        Bool.and_false]
    · have hplace : pinBaseNr line ≠ pinBaseNr pin := fun h => hline (place_injective hvec h)
      rw [if_neg hline]
      simp only [Function.update_of_ne hplace, getLsbD_and_not_bit, hplace, decide_false,
        Bool.not_false, Bool.and_true]
  · have hline : line ≠ pin := fun h => hvec (congrArg irqIndex h)
    rw [if_neg hline]
    simp only [Function.update_of_ne hvec]

variable {e : Exti ι} {r : Registry ι}

theorem Shows.construct (h : e.Shows r) (id : ι) (pin : PinName) :
    (e.gpioIrqInit id pin).Shows (r.call (.construct id (some pin))).2 where
  free line hline := by
    rw [place_gpioIrqInit]
    by_cases heq : line = pin.pin
    · subst heq
      simp [Registry.call] at hline
    · rw [if_neg heq]
      simp only [Registry.call, Function.update_of_ne heq] at hline
      exact h.free line hline
  taken line id' port hline := by
    rw [place_gpioIrqInit]
    by_cases heq : line = pin.pin
    · subst heq
      simp only [Registry.call, Function.update_self, Option.some.injEq, Prod.mk.injEq] at hline
      rw [if_pos rfl, hline.1, hline.2]
    · rw [if_neg heq]
      simp only [Registry.call, Function.update_of_ne heq] at hline
      exact h.taken line id' port hline
  pins := forall_update (P := fun (obj : GpioIrq) pin => obj.pin = pin) h.pins id rfl
  vectors :=
    forall_update (P := fun (obj : GpioIrq) (pin : PinName) =>
      obj.irqIndex = irqIndex pin.pin) h.vectors id rfl
  edges := forall_update (P := fun (obj : GpioIrq) edges => obj.event.edges = edges) h.edges id rfl
  pr := h.pr
  idr := h.idr

theorem Shows.constructNC (h : e.Shows r) (id : ι) :
    Shows { e with objs := Function.update e.objs id ⟨0, .none, 0, 0⟩ }
      (r.call (.construct id none)).2 where
  free := h.free
  taken := h.taken
  pins := forall_update (P := fun (obj : GpioIrq) pin => obj.pin = pin) h.pins id rfl
  vectors :=
    forall_update (P := fun (obj : GpioIrq) (pin : PinName) =>
      obj.irqIndex = irqIndex pin.pin) h.vectors id (by decide)
  edges := forall_update (P := fun (obj : GpioIrq) edges => obj.event.edges = edges) h.edges id rfl
  pr := h.pr
  idr := h.idr

theorem Shows.destroy (h : e.Shows r) (id : ι) :
    (e.gpioIrqFree id).Shows (r.call (.destroy id)).2 := by
  have hirq : (e.objs id).irqIndex = irqIndex (e.objs id).pin.pin := by
    rw [h.vectors id, h.pins id]
  refine ⟨fun line hline => ?_, fun line id' port hline => ?_, ?_, ?_, ?_, h.pr, h.idr⟩
  · rw [place_gpioIrqFree e id hirq, h.pins id]
    by_cases heq : line = (r.pins id).pin
    · rw [if_pos heq]
    · rw [if_neg heq]
      simp only [Registry.call, Function.update_of_ne heq] at hline
      exact h.free line hline
  · rw [place_gpioIrqFree e id hirq, h.pins id]
    by_cases heq : line = (r.pins id).pin
    · subst heq
      simp [Registry.call] at hline
    · rw [if_neg heq]
      simp only [Registry.call, Function.update_of_ne heq] at hline
      exact h.taken line id' port hline
  · exact forall_update_left (P := fun (obj : GpioIrq) pin => obj.pin = pin) h.pins id (h.pins id)
  · exact forall_update_left (P := fun (obj : GpioIrq) (pin : PinName) =>
      obj.irqIndex = irqIndex pin.pin) h.vectors id (h.vectors id)
  · exact forall_update (P := fun (obj : GpioIrq) edges => obj.event.edges = edges) h.edges id rfl

/-! ### Edges -/

theorem Shows.attach (h : e.Shows r) (id : ι) (event : GpioIrqEvent) (enable : Bool) :
    Shows { e with
        objs := Function.update e.objs id ((e.objs id).gpioIrqSet event enable).2 }
      (r.call (.attach id event enable)).2 := by
  obtain ⟨-, hedges, hpin, hvector⟩ := (e.objs id).gpioIrqSet_spec event enable
  refine ⟨h.free, h.taken, ?_, ?_, ?_, h.pr, h.idr⟩
  · exact forall_update_left (P := fun (obj : GpioIrq) pin => obj.pin = pin) h.pins id
      (hpin.trans (h.pins id))
  · exact forall_update_left (P := fun (obj : GpioIrq) (pin : PinName) =>
      obj.irqIndex = irqIndex pin.pin) h.vectors id (hvector.trans (h.vectors id))
  · refine forall_update (P := fun (obj : GpioIrq) edges => obj.event.edges = edges) h.edges id ?_
    rw [hedges, h.edges id]

/-! ### Interrupts -/

omit [DecidableEq ι] in
/-- **A turn of the loop** tells the object of the line, if there is one, and clears its flag. -/
theorem Shows.handlePlace (h : e.Shows r) (line : Fin 16) :
    ∃ e', e.handlePlace (irqIndex line) (pinBaseNr line) = .ok ((r.told line).toList, e') ∧
      e'.Shows (r.clear [line]) := by
  cases hreg : r.reg line with
  | none =>
    -- nobody listens: the place is not configured
    have hmask : (e.channels (irqIndex line)).pinMask.getLsbD (pinBaseNr line).val = false :=
      h.free line hreg
    refine ⟨e, ?_, ?_⟩
    · simp only [Exti.handlePlace, (and_bit_eq_zero_iff _ _).2 hmask, if_true]
      simp [Registry.told, hreg]
    · rw [Registry.clear_eq r [line] fun line' hmem _ => (List.mem_singleton.1 hmem).symm ▸ hreg]
      exact h
  | some x =>
    obtain ⟨id, port⟩ := x
    have hplace := h.taken line id port hreg
    simp only [place, Prod.mk.injEq] at hplace
    obtain ⟨hmask, hid, hport, hpin⟩ := hplace
    have hne : ¬ (e.channels (irqIndex line)).pinMask &&& 1#32 <<< (pinBaseNr line).val = 0 := by
      rw [and_bit_eq_zero_iff, hmask]
      exact Bool.noConfusion
    cases hpr : r.pr line with
    | false =>
      refine ⟨e, ?_, ?_⟩
      · simp only [Exti.handlePlace, if_neg hne, hpin, h.pr, hpr]
        simp [Registry.told, hpr]
      · rw [Registry.clear_eq r [line] fun line' hmem hline' => ?_]
        · exact h
        · rw [List.mem_singleton.1 hmem, hpr] at hline'
          cases hline'
    | true =>
      refine ⟨{ e with pr := Function.update e.pr line false }, ?_, ?_⟩
      · simp only [Exti.handlePlace, if_neg hne, hpin, hid, hport, h.pr, h.idr, hpr, if_true]
        simp [Registry.told, hpr, hreg]
      · refine ⟨h.free, h.taken, h.pins, h.vectors, h.edges, ?_, h.idr⟩
        funext line'
        by_cases heq : line' = line
        · simp [Registry.clear, heq, hreg]
        · simp [Registry.clear, heq, h.pr]

omit [DecidableEq ι] in
/-- **The loop** tells the objects of the lines that it goes over, in their order. -/
theorem Shows.handleLoop {irq : Fin 7} {lines : List (Fin 16)} (hnodup : lines.Nodup)
    (hirq : ∀ line ∈ lines, irqIndex line = irq) :
    ∀ {e : Exti ι} {r : Registry ι}, e.Shows r →
      ∃ e', Exti.handleLoop irq (lines.map pinBaseNr) e = .ok (lines.filterMap r.told, e') ∧
        e'.Shows (r.clear lines) := by
  induction lines with
  | nil =>
    intro e r h
    refine ⟨e, rfl, ?_⟩
    rw [Registry.clear_eq r [] fun line hmem => by cases hmem]
    exact h
  | cons line lines ih =>
    intro e r h
    obtain ⟨hnot, hnodup⟩ := List.nodup_cons.1 hnodup
    have hline : irqIndex line = irq := hirq line List.mem_cons_self
    obtain ⟨e₁, hturn, h₁⟩ := h.handlePlace line
    obtain ⟨e₂, hrest, h₂⟩ := ih hnodup (fun l hl => hirq l (List.mem_cons_of_mem _ hl)) h₁
    -- the flag that is cleared is not one of the lines that are left
    have htold : lines.filterMap (r.clear [line]).told = lines.filterMap r.told :=
      List.filterMap_congr fun l hl => r.told_clear fun heq => hnot (heq ▸ hl)
    refine ⟨e₂, ?_, ?_⟩
    · rw [hline] at hturn
      simp only [List.map_cons, Exti.handleLoop, hturn, bind, Except.bind, hrest, htold]
      cases hold : r.told line with
      | none => simp [hold, pure, Except.pure]
      | some x => simp [hold, pure, Except.pure]
    · rw [← r.clear_cons]
      exact h₂

/-! ### The driver answers as the map does -/

/-- **A call** is answered as the map answers it. -/
theorem Shows.call (h : e.Shows r) (c : Call ι) :
    ∃ e', e.call c = .ok ((r.call c).1, e') ∧ e'.Shows (r.call c).2 := by
  cases c with
  | construct id pin =>
    cases pin with
    | none => exact ⟨_, rfl, h.constructNC id⟩
    | some pin => exact ⟨_, rfl, h.construct id pin⟩
  | destroy id =>
    refine ⟨_, ?_, h.destroy id⟩
    simp only [Exti.call, Registry.call, h.pins]
  | attach id event enable =>
    obtain ⟨hmode, -, hpin, -⟩ := (e.objs id).gpioIrqSet_spec event enable
    refine ⟨_, ?_, h.attach id event enable⟩
    simp only [Exti.call, Registry.call, hmode, hpin, h.pins, h.edges]
  | raise line =>
    refine ⟨_, rfl, h.free, h.taken, h.pins, h.vectors, h.edges, ?_, h.idr⟩
    simp only [Registry.call, h.pr]
  | drive pin level =>
    refine ⟨_, rfl, h.free, h.taken, h.pins, h.vectors, h.edges, h.pr, ?_⟩
    simp only [Registry.call, h.idr]
  | interrupt irq =>
    obtain ⟨e', hloop, h'⟩ :=
      Shows.handleLoop (nodup_linesOf irq) (fun line hmem => mem_linesOf.1 hmem) h
    refine ⟨e', ?_, h'⟩
    simp only [Exti.call, handleInterruptIn, places_eq, hloop, Registry.call]
    rfl

theorem Shows.answers (cs : List (Call ι)) :
    ∀ {e : Exti ι} {r : Registry ι}, e.Shows r → e.answers cs = .ok (r.answers cs) := by
  induction cs with
  | nil => exact fun _ => rfl
  | cons c cs ih =>
    intro e r h
    obtain ⟨e', hcall, h'⟩ := h.call c
    simp only [Exti.answers, Registry.answers, hcall, bind, Except.bind, ih h']
    rfl

/-- **The driver of the pin interrupts** follows no null pointer, and answers as the map from lines
to objects does, whatever objects are constructed and destroyed, and whatever edges come. -/
theorem answers_registry (cs : List (Call ι)) :
    answers (init : Exti ι) cs = .ok (Registry.init.answers cs) :=
  Shows.answers cs shows_init

-- two pins that share a line: the destructor of the older object takes the line from the newer one
example : answers (init : Exti Bool) [.construct false (some ⟨0, 13⟩),
    .construct true (some ⟨2, 13⟩), .attach true .irqFall true, .raise 13, .interrupt 6,
    .destroy false, .raise 13, .interrupt 6] =
      .ok [.modes ⟨0, 13⟩ [.itFalling, .input, .input], .modes ⟨2, 13⟩ [.itFalling, .input, .input],
        .modes ⟨2, 13⟩ [.itFalling], .done, .handled [(true, .irqFall)],
        .modes ⟨0, 13⟩ [.input], .done, .handled []] :=
  rfl

end Exti

end Hal

end UavTelemetry
