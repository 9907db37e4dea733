import UavTelemetry.Hal.GpioIrq
import UavTelemetry.System.KeyCodes

/-!
# The lines of the keys

The keys of `main.cpp` are on twelve different lines, though on six vectors only.  While their
objects live, an interrupt of a vector tells every key of the vector whose line has been raised
since the last one, once, and no other key.

## Main results

* `Exti.key_told` : what an interrupt tells a key.
-/

namespace UavTelemetry

namespace Hal

open KeyDecoder (numKeys keyN)

/-- The pins of `key_N`, ..., `key_RTH` in `main.cpp`. -/
def keyPin (k : Fin numKeys) : PinName :=
  pinName
    ([0x04, 0x05, 0x06, 0x07, 0x11, 0x12, 0x19, 0x1A, 0x1B, 0x1C, 0x1D, 0x1E].get k)

/-- The constructors of the keys. -/
def constructKeys : List (Call (Fin numKeys)) :=
  (List.finRange numKeys).map fun k => .construct k (some (keyPin k))

variable {ι : Type} [DecidableEq ι]

/-- No object is constructed or destroyed. -/
def Call.keeps : Call ι → Bool
  | .construct _ _ => false
  | .destroy _ => false
  | .attach _ _ _ => true
  | .raise _ => true
  | .drive _ _ => true
  | .interrupt _ => true

/-- Whether a line to which somebody listens is pending after a call. -/
def Call.raised (line : Fin 16) (b : Bool) : Call ι → Bool
  | .raise line' => b || decide (line = line')
  | .interrupt irq => b && !decide (irqIndex line = irq)
  | _ => b

/-- The level of a pin after a call. -/
def Call.level (pin : PinName) (b : Bool) : Call ι → Bool
  | .drive pin' level => if pin = pin' then level else b
  | _ => b

/-- Whether a line has been raised since the last interrupt of its vector. -/
def raisedSince (line : Fin 16) (cs : List (Call ι)) : Bool :=
  cs.foldl (Call.raised line) false

/-- The level to which a pin has been driven. -/
def levelAfter (pin : PinName) (cs : List (Call ι)) : Bool :=
  cs.foldl (Call.level pin) false

namespace Registry

variable {r : Registry ι}

/-- The map after a sequence of calls. -/
def run (r : Registry ι) (cs : List (Call ι)) : Registry ι :=
  cs.foldl (fun r c => (r.call c).2) r

theorem answers_append (cs cs' : List (Call ι)) :
    ∀ r : Registry ι, r.answers (cs ++ cs') = r.answers cs ++ (r.run cs).answers cs' := by
  induction cs with
  | nil => exact fun r => rfl
  | cons c cs ih =>
    intro r
    simp only [List.cons_append, answers, ih]
    rfl

theorem run_append (cs cs' : List (Call ι)) : r.run (cs ++ cs') = (r.run cs).run cs' :=
  List.foldl_append

/-! ### One call -/

theorem reg_call {c : Call ι} (hc : c.keeps = true) : (r.call c).2.reg = r.reg := by
  cases c with
  | construct id pin => cases hc
  | destroy id => cases hc
  | attach id event enable => rfl
  | raise line => rfl
  | drive pin level => rfl
  | interrupt irq => rfl

theorem pr_call {c : Call ι} (hc : c.keeps = true) {line : Fin 16}
    (hline : (r.reg line).isSome = true) : (r.call c).2.pr line = c.raised line (r.pr line) := by
  cases c with
  | construct id pin => cases hc
  | destroy id => cases hc
  | attach id event enable => rfl
  | raise line' =>
    by_cases heq : line = line'
    · simp [call, Call.raised, heq]
    · simp [call, Call.raised, heq]
  | drive pin level => rfl
  | interrupt irq =>
    have hlistens : (r.reg line).isNone = false := by
      rw [Option.isNone_eq_false_iff]
      exact hline
    simp [call, clear, Call.raised, hlistens, mem_linesOf]

theorem idr_call {c : Call ι} (hc : c.keeps = true) (pin : PinName) :
    (r.call c).2.idr pin.port pin.pin = c.level pin (r.idr pin.port pin.pin) := by
  cases c with
  | construct id pin => cases hc
  | destroy id => cases hc
  | attach id event enable => rfl
  | raise line => rfl
  | drive pin' level =>
    obtain ⟨port, line⟩ := pin
    obtain ⟨port', line'⟩ := pin'
    by_cases hport : port = port'
    · by_cases hline : line = line'
      · simp [call, Call.level, hport, hline]
      · simp [call, Call.level, hport, hline]
    · simp [call, Call.level, hport]
  | interrupt irq => rfl

/-! ### Runs -/

theorem reg_run {cs : List (Call ι)} (hcs : ∀ c ∈ cs, c.keeps = true) :
    ∀ r : Registry ι, (r.run cs).reg = r.reg := by
  induction cs with
  | nil => exact fun r => rfl
  | cons c cs ih =>
    intro r
    have hrest := ih (fun c' hc' => hcs c' (List.mem_cons_of_mem _ hc')) (r.call c).2
    exact hrest.trans (reg_call (hcs c List.mem_cons_self))

theorem pr_run {cs : List (Call ι)} (hcs : ∀ c ∈ cs, c.keeps = true) {line : Fin 16} :
    ∀ r : Registry ι, (r.reg line).isSome = true →
      (r.run cs).pr line = cs.foldl (Call.raised line) (r.pr line) := by
  induction cs with
  | nil => exact fun r _ => rfl
  | cons c cs ih =>
    intro r hline
    have hc := hcs c List.mem_cons_self
    have hrest := ih (fun c' hc' => hcs c' (List.mem_cons_of_mem _ hc')) (r.call c).2
      (by rw [reg_call hc]; exact hline)
    rw [pr_call hc hline] at hrest
    exact hrest

theorem idr_run {cs : List (Call ι)} (hcs : ∀ c ∈ cs, c.keeps = true) (pin : PinName) :
    ∀ r : Registry ι, (r.run cs).idr pin.port pin.pin =
      cs.foldl (Call.level pin) (r.idr pin.port pin.pin) := by
  induction cs with
  | nil => exact fun r => rfl
  | cons c cs ih =>
    intro r
    have hrest := ih (fun c' hc' => hcs c' (List.mem_cons_of_mem _ hc')) (r.call c).2
    rw [idr_call (hcs c List.mem_cons_self)] at hrest
    exact hrest

/-! ### Who is told -/

/-- If an object listens to one line only, what it is told is what is told of this line. -/
theorem filter_told {id : ι} {line : Fin 16} {port : Fin 4} (hreg : r.reg line = some (id, port))
    (honly : ∀ line' port', r.reg line' = some (id, port') → line' = line)
    {lines : List (Fin 16)} (hnodup : lines.Nodup) :
    (lines.filterMap r.told).filter (fun x => x.1 = id) =
      if line ∈ lines then (r.told line).toList else [] := by
  induction lines with
  | nil => rfl
  | cons line' lines ih =>
    obtain ⟨hnot, hnodup⟩ := List.nodup_cons.1 hnodup
    have ih := ih hnodup
    by_cases heq : line' = line
    · subst heq
      rw [if_neg hnot] at ih
      rw [if_pos List.mem_cons_self]
      cases hpr : r.pr line' with
      | false => simpa [told, hpr] using ih
      | true => simpa [told, hpr, hreg] using ih
    -- the object does not listen to another line
    · have hmem : line ∈ line' :: lines ↔ line ∈ lines := by
        simp [Ne.symm heq]
      rw [if_congr hmem rfl rfl, ← ih]
      cases hother : r.told line' with
      | none => simp [hother]
      | some x =>
        have hne : x.1 ≠ id := by
          intro hid
          unfold told at hother
          split at hother
          · obtain ⟨y, hy, hx⟩ := Option.map_eq_some_iff.1 hother
            refine heq (honly line' y.2 ?_)
            rw [hy, ← hid, ← hx]
          · cases hother
        simp [hother, hne]

end Registry

/-! ### The keys -/

theorem reg_constructKeys (k : Fin numKeys) :
    (Registry.init.run constructKeys).reg (keyPin k).pin = some (k, (keyPin k).port) := by
  revert k
  decide

/-- Only lines of keys are listened to. -/
theorem exists_key_of_reg {line : Fin 16}
    (h : ((Registry.init.run constructKeys).reg line).isSome = true) :
    ∃ k, (keyPin k).pin = line := by
  revert line
  decide

theorem reg_constructKeys_only {k : Fin numKeys} {line : Fin 16} {port : Fin 4}
    (h : (Registry.init.run constructKeys).reg line = some (k, port)) : line = (keyPin k).pin := by
  have hlistens : ((Registry.init.run constructKeys).reg line).isSome = true := by
    rw [h]
    rfl
  obtain ⟨k', rfl⟩ := exists_key_of_reg hlistens
  rw [reg_constructKeys] at h
  cases h
  rfl

/-- **What an interrupt tells a key**: that its pin has risen or fallen, once, if its line has been
raised since the last interrupt of the vector, and nothing otherwise. -/
theorem Exti.key_told (irq : Fin 7) (cs : List (Call (Fin numKeys)))
    (hcs : ∀ c ∈ cs, c.keeps = true) :
    ∃ before calls,
      Exti.answers .init (constructKeys ++ cs ++ [.interrupt irq]) =
        .ok (before ++ [.handled calls]) ∧
      ∀ k, calls.filter (fun x => x.1 = k) =
        if irqIndex (keyPin k).pin = irq ∧ raisedSince (keyPin k).pin cs = true then
          [(k, if levelAfter (keyPin k) cs then .irqRise else .irqFall)]
        else [] := by
  let r := (Registry.init.run constructKeys).run cs
  have hreg : r.reg = (Registry.init.run constructKeys).reg := Registry.reg_run hcs _
  refine ⟨Registry.init.answers (constructKeys ++ cs), (linesOf irq).filterMap r.told, ?_,
    fun k => ?_⟩
  · rw [Shows.answers _ shows_init, Registry.answers_append, Registry.run_append]
    rfl
  · have hkey : r.reg (keyPin k).pin = some (k, (keyPin k).port) := by
      rw [hreg, reg_constructKeys]
    rw [Registry.filter_told hkey
      (fun line port h => reg_constructKeys_only (hreg ▸ h)) (nodup_linesOf irq)]
    have hpr : r.pr (keyPin k).pin = raisedSince (keyPin k).pin cs :=
      Registry.pr_run hcs _ (by rw [reg_constructKeys]; rfl)
    have hidr : r.idr (keyPin k).port (keyPin k).pin = levelAfter (keyPin k) cs :=
      Registry.idr_run hcs (keyPin k) _
    by_cases hirq : irqIndex (keyPin k).pin = irq
    · rw [if_pos (mem_linesOf.2 hirq)]
      cases hraised : raisedSince (keyPin k).pin cs with
      | false => simp [Registry.told, hpr, hraised]
      | true => simp [Registry.told, hpr, hraised, hkey, hidr, hirq]
    · rw [if_neg fun hmem => hirq (mem_linesOf.1 hmem), if_neg fun h => hirq h.1]

/-- `key_N` is pressed: its pin is driven high first, and then low. -/
def pressN : List (Call (Fin numKeys)) :=
  [.attach keyN .irqFall true, .drive (keyPin keyN) true, .drive (keyPin keyN) false,
    .raise (keyPin keyN).pin]

theorem Exti.key_told_pressN :
    (∀ c ∈ pressN, c.keeps = true) ∧ ∃ before calls,
      Exti.answers .init (constructKeys ++ pressN ++ [.interrupt 4]) =
        .ok (before ++ [.handled calls]) ∧
      calls.filter (fun x => x.1 = keyN) = [(keyN, .irqFall)] := by
  have hkeeps : ∀ c ∈ pressN, c.keeps = true := by decide
  obtain ⟨before, calls, hanswers, hcalls⟩ := Exti.key_told 4 pressN hkeeps
  exact ⟨hkeeps, before, calls, hanswers, (hcalls keyN).trans (by decide)⟩

end Hal

end UavTelemetry
