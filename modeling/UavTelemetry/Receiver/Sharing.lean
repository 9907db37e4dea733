import Mathlib.Logic.Function.Basic
import UavTelemetry.Receiver.Bounds

/-!
# Several receivers

The state of the protocol and the receive buffer are members of each receiver, but the counter of
the data bytes is a static variable of `decodePdu`: there is one for all receivers.  It is set
when the size of a frame is read, and used from then on to the checksum.  A receiver whose bytes
come between those of another one is not disturbed by it as long as it finds the counter as it left
it.

## Main definitions

* `Receivers` : the members of each receiver, and the one counter.
* `Receivers.machine` : bytes for any receiver and assignments of its loop, in any order.
* `Undisturbed` : a receiver fares as it does alone.
* `OwnCount` : a call that uses the counter finds it as the receiver left it.

## Main results

* `Receivers.own_run` : what becomes of a receiver that finds its own count.
* `undisturbed_of_ownCount` : when receivers do not disturb each other.
-/

namespace UavTelemetry

namespace VirtualReceiver

variable {ι : Type} [DecidableEq ι]

/-- The members of a receiver that `decodePdu` uses. -/
structure Members where
  /-- `_protostat`. -/
  protostat : ProtocolStat
  /-- `_rxpdu`. -/
  rxpdu : PDU
  deriving DecidableEq

/-- The receivers. -/
structure Receivers (ι : Type) where
  /-- The members of each receiver. -/
  members : ι → Members
  /-- `static uint8_t datasize`, of which there is only one. -/
  datasize : UInt8

/-- What has come of the calls so far. -/
structure Returned (ι : Type) where
  /-- The codes returned to each receiver. -/
  codes : ι → List UInt8
  /-- The value that the calls of a receiver have last given the counter. -/
  left : ι → UInt8

/-- A call of `decodePdu` assigns the counter. -/
def Decoder.Counts (d : Decoder) (b : UInt8) : Prop :=
  d.protostat = .statRecvHead ∧ b < maxSize ∨ d.protostat = .statRecvSize

instance (d : Decoder) (b : UInt8) : Decidable (d.Counts b) :=
  inferInstanceAs (Decidable (_ ∨ _))

/-- The code returned, if `decodePdu` is called. -/
def DecoderStep.code (e : DecoderStep) (d : Decoder) : List UInt8 :=
  match e with
  | .byte b => [(decodePdu d b).1]
  | _ => []

namespace Receivers

/-- What a call of `decodePdu` for a receiver works on. -/
def decoder (r : Receivers ι) (i : ι) : Decoder :=
  ⟨(r.members i).protostat, (r.members i).rxpdu, r.datasize⟩

/-- The variables after the call. -/
def put (r : Receivers ι) (i : ι) (d : Decoder) : Receivers ι :=
  ⟨Function.update r.members i ⟨d.protostat, d.rxpdu⟩, d.datasize⟩

/-- What a step adds to the returned codes and the counts. -/
def record (r : Receivers ι) (l : ι × DecoderStep) (r' : Receivers ι) (h : Returned ι) :
    Returned ι where
  codes := Function.update h.codes l.1 (h.codes l.1 ++ l.2.code (r.decoder l.1))
  left :=
    match l.2 with
    | .byte b =>
      if (r.decoder l.1).Counts b then Function.update h.left l.1 r'.datasize else h.left
    | _ => h.left

/-- Bytes and assignments for the receivers, in any order. -/
def machine : Machine (Receivers ι × Returned ι) (ι × DecoderStep) :=
  Machine.observe ⟨fun r l => (Decoder.machine.step (r.decoder l.1) l.2).map (r.put l.1)⟩ record

/-- Nothing has been returned, and the counter is as it was found. -/
def start (r : Receivers ι) : Receivers ι × Returned ι :=
  (r, ⟨fun _ => [], fun _ => r.datasize⟩)

end Receivers

/-- **A receiver is not disturbed** by the other ones: the codes returned to it and its members are
those of the run in which only its own steps are taken. -/
def Undisturbed (r : Receivers ι) (ls : List (ι × DecoderStep)) (i : ι) : Prop :=
  ∀ p q, Receivers.machine.run r.start ls = some p →
    Receivers.machine.run r.start (ls.filter (·.1 = i)) = some q →
      p.2.codes i = q.2.codes i ∧ p.1.members i = q.1.members i

/-- A call that uses the counter finds it as the receiver has left it. -/
def OwnCount (p : Receivers ι × Returned ι) (l : ι × DecoderStep) : Prop :=
  match l.2 with
  | .byte _ =>
    ((p.1.members l.1).protostat = .statRecvSize ∨ (p.1.members l.1).protostat = .statRecvData) →
      p.1.datasize = p.2.left l.1
  | _ => True

/-- A call stays within the receive buffer. -/
def InBuffer (p : Receivers ι × Returned ι) (l : ι × DecoderStep) : Prop :=
  match l.2 with
  | .byte _ => ∀ j ∈ (p.1.decoder l.1).indices, j < maxSize.toNat
  | _ => True

instance (p : Receivers ι × Returned ι) : (l : ι × DecoderStep) → Decidable (OwnCount p l)
  | (_, .byte _) => inferInstanceAs (Decidable (_ → _))
  | (_, .waitResponse) => isTrue trivial
  | (_, .waitCommand) => isTrue trivial

instance (p : Receivers ι × Returned ι) : (l : ι × DecoderStep) → Decidable (InBuffer p l)
  | (_, .byte _) => inferInstanceAs (Decidable (∀ j ∈ Decoder.indices _, j < maxSize.toNat))
  | (_, .waitResponse) => isTrue trivial
  | (_, .waitCommand) => isTrue trivial

/-! ### The counter and the rest -/

/-- The variables of `decodePdu` after a step. -/
def DecoderStep.apply (e : DecoderStep) (d : Decoder) : Decoder :=
  match e with
  | .byte b => (decodePdu d b).2
  | .waitResponse => { d with protostat := .statWaitResponse }
  | .waitCommand => { d with protostat := .statWaitCommand }

theorem Decoder.machine_step (d : Decoder) (e : DecoderStep) :
    Decoder.machine.step d e = some (e.apply d) := by
  cases e <;> rfl

/-- A call that does not assign the counter leaves it. -/
theorem datasize_decodePdu {d : Decoder} {b : UInt8} (h : ¬ d.Counts b) :
    (decodePdu d b).2.datasize = d.datasize := by
  rw [Decoder.Counts, not_or, not_and] at h
  cases hstat : d.protostat with
  | statWaitCommand => simp [decodePdu, hstat]
  | statWaitResponse => by_cases hb : b = headFlag <;> simp [decodePdu, hstat, hb]
  | statRecvHead => rw [decodePdu_head_bad hstat (UInt8.not_lt.1 (h.1 hstat))]
  | statRecvSize => exact absurd hstat h.2
  | statRecvData => simp [decodePdu, hstat]

/-- Outside of the data bytes and the checksum the counter is not used: what a call does to the
rest does not depend on it. -/
theorem decodePdu_replace {d : Decoder} (hsize : d.protostat ≠ .statRecvSize)
    (hdata : d.protostat ≠ .statRecvData) (n : UInt8) (b : UInt8) :
    decodePdu { d with datasize := n } b = ((decodePdu d b).1,
      { (decodePdu d b).2 with
        datasize := if d.Counts b then (decodePdu d b).2.datasize else n }) := by
  cases hstat : d.protostat with
  | statWaitCommand => simp [decodePdu, hstat, Decoder.Counts]
  | statWaitResponse => by_cases hb : b = headFlag <;> simp [decodePdu, hstat, hb, Decoder.Counts]
  | statRecvHead =>
    by_cases hb : maxSize ≤ b
    · simp [decodePdu, hstat, hb, Decoder.Counts, UInt8.not_lt.2 hb]
    · simp [decodePdu, hstat, hb, Decoder.Counts, UInt8.not_le.1 hb]
  | statRecvSize => exact absurd hstat hsize
  | statRecvData => exact absurd hstat hdata

/-! ### A receiver by itself -/

/-- The variables after some steps. -/
def Decoder.follow (d : Decoder) (es : List DecoderStep) : Decoder :=
  es.foldl (fun d e => e.apply d) d

/-- The codes returned by some steps. -/
def Decoder.returned (d : Decoder) : List DecoderStep → List UInt8
  | [] => []
  | e :: es => e.code d ++ (e.apply d).returned es

namespace Receivers

/-- The steps of a receiver. -/
def stepsOf (i : ι) (ls : List (ι × DecoderStep)) : List DecoderStep :=
  (ls.filter (·.1 = i)).map Prod.snd

/-- The variables of a receiver, with the counter as it left it. -/
def own (p : Receivers ι × Returned ι) (i : ι) : Decoder :=
  { p.1.decoder i with datasize := p.2.left i }

variable {p p' : Receivers ι × Returned ι} {l : ι × DecoderStep} {ls : List (ι × DecoderStep)}
  {i : ι}

theorem machine_step (p : Receivers ι × Returned ι) (l : ι × DecoderStep) :
    machine.step p l = some (p.1.put l.1 (l.2.apply (p.1.decoder l.1)),
      record p.1 l (p.1.put l.1 (l.2.apply (p.1.decoder l.1))) p.2) := by
  simp [machine, Machine.observe, Decoder.machine_step]

theorem left_record (r r' : Receivers ι) (b : UInt8) (h : Returned ι) :
    (record r (i, .byte b) r' h).left i =
      if (r.decoder i).Counts b then r'.datasize else h.left i := by
  simp only [record]
  split_ifs
  · exact Function.update_self ..
  · rfl

theorem left_record_of_ne (r r' : Receivers ι) (h : Returned ι) (hne : i ≠ l.1) :
    (record r l r' h).left i = h.left i := by
  simp only [record]
  cases l.2 with
  | byte b =>
    simp only
    split_ifs
    · exact Function.update_of_ne hne _ _
    · rfl
  | _ => rfl

theorem members_put (r : Receivers ι) (i : ι) (d : Decoder) :
    (r.put i d).members i = ⟨d.protostat, d.rxpdu⟩ := Function.update_self ..

/-- A receiver keeps its variables while another one takes a step. -/
theorem own_step_of_ne (hst : machine.step p l = some p') (hne : i ≠ l.1) :
    own p' i = own p i ∧ p'.2.codes i = p.2.codes i := by
  rw [machine_step, Option.some.injEq] at hst
  subst hst
  refine ⟨?_, Function.update_of_ne hne _ _⟩
  rw [own, own, left_record_of_ne _ _ _ hne]
  simp only [decoder, put, Function.update_of_ne hne]

/-- **A step with its own count** does to a receiver what it does to it alone. -/
theorem own_step (hst : machine.step p l = some p') (hC : OwnCount p l) :
    own p' l.1 = l.2.apply (own p l.1) ∧
      p'.2.codes l.1 = p.2.codes l.1 ++ l.2.code (own p l.1) := by
  rw [machine_step, Option.some.injEq] at hst
  subst hst
  obtain ⟨i, e⟩ := l
  cases e with
  | byte b =>
    set d := p.1.decoder i with hd
    -- the call with the counter as it is, and with the receiver's own one
    have hcall : decodePdu (own p i) b = ((decodePdu d b).1, { (decodePdu d b).2 with
        datasize := if d.Counts b then (decodePdu d b).2.datasize else p.2.left i }) := by
      by_cases huses : d.protostat = .statRecvSize ∨ d.protostat = .statRecvData
      · have hsame : d.datasize = p.2.left i := hC huses
        have hown : own p i = d := by rw [own, ← hd, ← hsame]
        have hkept : (if d.Counts b then (decodePdu d b).2.datasize else p.2.left i) =
            (decodePdu d b).2.datasize := by
          split_ifs with hcounts
          · rfl
          · rw [datasize_decodePdu hcounts, hsame]
        rw [hown, hkept]
      · rw [not_or] at huses
        exact decodePdu_replace huses.1 huses.2 _ b
    refine ⟨?_, ?_⟩
    · rw [own, left_record, ← hd]
      simp only [decoder, DecoderStep.apply, members_put, hcall]
      rfl
    · simp only [record, DecoderStep.code, hcall, Function.update_self, ← hd]
  | waitResponse => simp [own, decoder, members_put, record, DecoderStep.apply, DecoderStep.code]
  | waitCommand => simp [own, decoder, members_put, record, DecoderStep.apply, DecoderStep.code]

/-- **What becomes of a receiver** whose calls find its own count: the same as of one alone. -/
theorem own_run (hC : machine.AllSteps OwnCount p ls) (hrun : machine.run p ls = some p') :
    own p' i = (own p i).follow (stepsOf i ls) ∧
      p'.2.codes i = p.2.codes i ++ (own p i).returned (stepsOf i ls) := by
  induction ls generalizing p with
  | nil =>
    cases hrun
    exact ⟨rfl, (List.append_nil _).symm⟩
  | cons l ls ih =>
    obtain ⟨t, hst, hrun⟩ := Option.bind_eq_some_iff.1 hrun
    obtain ⟨hl, hls⟩ := hC t hst
    obtain ⟨hown, hcodes⟩ := ih hls hrun
    rw [hown, hcodes]
    by_cases hi : l.1 = i
    · obtain ⟨hown', hcodes'⟩ := own_step hst hl
      have hsteps : stepsOf i (l :: ls) = l.2 :: stepsOf i ls := by simp [stepsOf, hi]
      rw [hi] at hown' hcodes'
      rw [hsteps, hown', hcodes', List.append_assoc]
      exact ⟨rfl, rfl⟩
    · obtain ⟨hown', hcodes'⟩ := own_step_of_ne hst (Ne.symm hi)
      have hsteps : stepsOf i (l :: ls) = stepsOf i ls := by simp [stepsOf, hi]
      rw [hsteps, hown', hcodes']
      exact ⟨rfl, rfl⟩

/-- A receiver that is alone finds its own count. -/
theorem ownCount_alone (h : p.1.datasize = p.2.left i) (hls : ∀ l ∈ ls, l.1 = i) :
    machine.AllSteps OwnCount p ls ∧
      ∀ p', machine.run p ls = some p' → p'.1.datasize = p'.2.left i := by
  induction ls generalizing p with
  | nil =>
    refine ⟨trivial, fun p' hrun => ?_⟩
    cases hrun
    exact h
  | cons l ls ih =>
    rw [List.forall_mem_cons] at hls
    obtain ⟨rfl, hls⟩ := hls
    have hC : OwnCount p l := by
      rw [OwnCount]
      cases l.2 with
      | byte b => exact fun _ => h
      | _ => trivial
    have hnext : ∀ t, machine.step p l = some t → t.1.datasize = t.2.left l.1 := by
      intro t hst
      rw [machine_step, Option.some.injEq] at hst
      subst hst
      obtain ⟨i, e⟩ := l
      cases e with
      | byte b =>
        rw [left_record]
        split_ifs with hcounts
        · rfl
        · exact (datasize_decodePdu hcounts).trans h
      | _ => exact h
    refine ⟨fun t hst => ⟨hC, (ih (hnext t hst) hls).1⟩, fun p' hrun => ?_⟩
    obtain ⟨t, hst, hrun⟩ := Option.bind_eq_some_iff.1 hrun
    exact (ih (hnext t hst) hls).2 p' hrun

/-! ### The receive buffers -/

omit [DecidableEq ι] in
/-- A call that uses the counter, with the receiver's own count. -/
theorem decoder_eq_own (hC : p.1.datasize = p.2.left i) : p.1.decoder i = own p i := by
  rw [own, ← hC]
  rfl

theorem inBounds_step (h : ∀ i, InBounds (own p i)) (hC : OwnCount p l)
    (hst : machine.step p l = some p') : ∀ i, InBounds (own p' i) := by
  intro i
  by_cases hi : i = l.1
  · rw [hi, (own_step hst hC).1]
    exact (h l.1).step (Decoder.machine_step _ _)
  · rw [(own_step_of_ne hst hi).1]
    exact h i

omit [DecidableEq ι] in
theorem inBuffer_of_ownCount (h : ∀ i, InBounds (own p i)) (hC : OwnCount p l) :
    InBuffer p l := by
  obtain ⟨i, e⟩ := l
  cases e with
  | byte b =>
    show ∀ j ∈ (p.1.decoder i).indices, j < maxSize.toNat
    by_cases huses : (p.1.decoder i).protostat = .statRecvSize ∨
        (p.1.decoder i).protostat = .statRecvData
    · rw [decoder_eq_own (hC huses)]
      exact (h i).indices_lt.1
    · rw [not_or] at huses
      cases hd : (p.1.decoder i).protostat with
      | statRecvSize => exact absurd hd huses.1
      | statRecvData => exact absurd hd huses.2
      | _ => simp [Decoder.indices, hd]
  | _ => trivial

/-- The runs with the own count stay within the receive buffers. -/
theorem allSteps_inBuffer (h : ∀ i, InBounds (own p i)) (hC : machine.AllSteps OwnCount p ls) :
    machine.AllSteps InBuffer p ls := by
  induction ls generalizing p with
  | nil => trivial
  | cons l ls ih =>
    intro t hst
    obtain ⟨hl, hls⟩ := hC t hst
    exact ⟨inBuffer_of_ownCount h hl, ih (inBounds_step h hl hst) hls⟩

theorem inBounds_run (h : ∀ i, InBounds (own p i)) (hC : machine.AllSteps OwnCount p ls)
    (hrun : machine.run p ls = some p') : ∀ i, InBounds (own p' i) :=
  (Machine.allStates_of_allSteps (I := fun p => ∀ i, InBounds (own p i)) h
    (fun _ _ _ hp hl hst => inBounds_step hp hl hst) hC).last hrun

/-! ### Disturbances -/

/-- Data bytes and the checksum are written where the counter stands. -/
theorem data_decodePdu {d : Decoder} (b : UInt8)
    (huses : d.protostat = .statRecvSize ∨ d.protostat = .statRecvData) :
    (decodePdu d b).2.rxpdu.data = d.rxpdu.data.setIfInBounds d.datasize.toNat b := by
  rcases huses with hstat | hstat <;> simp [decodePdu, hstat]

theorem datasize_mem_indices {d : Decoder}
    (huses : d.protostat = .statRecvSize ∨ d.protostat = .statRecvData) :
    d.datasize.toNat ∈ d.indices := by
  rcases huses with hstat | hstat <;> simp [Decoder.indices, hstat]

/-- A byte that is written at another place than it should be, and is not there already. -/
theorem exists_data_ne {d : Decoder} {n : UInt8}
    (huses : d.protostat = .statRecvSize ∨ d.protostat = .statRecvData) (hne : d.datasize ≠ n)
    (hn : n.toNat < 32) :
    ∃ b, (decodePdu d b).2.rxpdu ≠ (decodePdu { d with datasize := n } b).2.rxpdu := by
  refine ⟨d.rxpdu.data[n.toNat] + 1, fun heq => ?_⟩
  have hdata := congrArg PDU.data heq
  rw [data_decodePdu _ huses, data_decodePdu _ (by exact huses)] at hdata
  have hbyte := congrArg (fun v : Vector UInt8 32 => v[n.toNat]) hdata
  have hplace : d.datasize.toNat ≠ n.toNat := fun h => hne (UInt8.toNat_inj.1 h)
  simp [hplace] at hbyte

/-- Every run can be taken. -/
theorem exists_run (p : Receivers ι × Returned ι) (ls : List (ι × DecoderStep)) :
    ∃ p', machine.run p ls = some p' := by
  induction ls generalizing p with
  | nil => exact ⟨p, rfl⟩
  | cons l ls ih =>
    obtain ⟨p', hrun⟩ := ih (p.1.put l.1 (l.2.apply (p.1.decoder l.1)),
      record p.1 l (p.1.put l.1 (l.2.apply (p.1.decoder l.1))) p.2)
    exact ⟨p', by rw [Machine.run_cons, machine_step, Option.bind_some, hrun]⟩

/-- The run of the steps of one receiver. -/
theorem own_run_alone {r : Receivers ι} {q : Receivers ι × Returned ι}
    (hrun : machine.run r.start (ls.filter (·.1 = i)) = some q) :
    own q i = (r.decoder i).follow (stepsOf i ls) ∧
      q.2.codes i = (r.decoder i).returned (stepsOf i ls) ∧ q.1.datasize = q.2.left i := by
  have halone : ∀ l ∈ ls.filter (·.1 = i), l.1 = i :=
    fun l hl => of_decide_eq_true (List.mem_filter.1 hl).2
  obtain ⟨hC, hsame⟩ := ownCount_alone (p := r.start) rfl halone
  obtain ⟨hown, hcodes⟩ := own_run (i := i) hC hrun
  have hsteps : stepsOf i (ls.filter (·.1 = i)) = stepsOf i ls := by simp [stepsOf]
  rw [hsteps] at hown hcodes
  exact ⟨hown, hcodes, hsame q hrun⟩

end Receivers

open Receivers

/-- **When receivers do not disturb each other.**  In every run in which a call that uses the
counter finds it as its receiver has left it, the codes, the state of the protocol and the receive
buffer of every receiver are those of the receiver alone, and no call leaves the receive buffer.
Where a receiver that uses the counter next would not find its own count, some byte shows the
difference. -/
theorem undisturbed_of_ownCount (r : Receivers ι) (ls : List (ι × DecoderStep))
    (hC : machine.AllSteps OwnCount r.start ls) :
    (∀ i, Undisturbed r ls i) ∧
      ((∀ i, InBounds (r.decoder i)) → machine.AllSteps InBuffer r.start ls ∧
        ∀ p i, machine.run r.start ls = some p →
          ((p.1.members i).protostat = .statRecvSize ∨ (p.1.members i).protostat = .statRecvData) →
            p.1.datasize ≠ p.2.left i → ∃ b, ¬ Undisturbed r (ls ++ [(i, .byte b)]) i) := by
  refine ⟨fun i p q hp hq => ?_, fun h => ⟨allSteps_inBuffer h hC, fun p i hp huses hne => ?_⟩⟩
  · obtain ⟨hown, hcodes⟩ := own_run (i := i) hC hp
    obtain ⟨hown', hcodes', -⟩ := own_run_alone hq
    have hsame : own p i = own q i := hown.trans hown'.symm
    have hmembers : ∀ p : Receivers ι × Returned ι,
        p.1.members i = ⟨(own p i).protostat, (own p i).rxpdu⟩ := fun _ => rfl
    exact ⟨hcodes.trans hcodes'.symm, by rw [hmembers p, hmembers q, hsame]⟩
  · obtain ⟨q, hq⟩ := exists_run r.start (ls.filter (·.1 = i))
    have hown : own p i = (r.decoder i).follow (stepsOf i ls) := (own_run hC hp).1
    obtain ⟨hown', -, hcount⟩ := own_run_alone hq
    have hn : (p.2.left i).toNat < 32 := by
      have hin : InBounds (own p i) := inBounds_run h hC hp i
      exact hin.indices_lt.1 _ (datasize_mem_indices (d := own p i) huses)
    obtain ⟨b, hb⟩ := exists_data_ne (d := p.1.decoder i) huses hne hn
    refine ⟨b, fun hsame => hb ?_⟩
    have hfilter : (ls ++ [(i, DecoderStep.byte b)]).filter (·.1 = i) =
        ls.filter (·.1 = i) ++ [(i, .byte b)] := by simp
    have hp' := (Machine.run_concat hp (i, .byte b)).trans (machine_step _ _)
    have hq' := (Machine.run_concat hq (i, .byte b)).trans (machine_step _ _)
    rw [← hfilter] at hq'
    have hmembers := (hsame _ _ hp' hq').2
    rw [members_put, members_put, decoder_eq_own hcount, hown'.trans hown.symm] at hmembers
    exact congrArg Members.rxpdu hmembers

/-! ### Two receivers -/

/-- Two receivers that await a response. -/
def pair : Receivers Bool := ⟨fun _ => ⟨.statWaitResponse, ⟨0, 0, Vector.replicate 32 0⟩⟩, 0⟩

/-- The frame of one receiver comes before the frame of the other one. -/
theorem undisturbed_pair : Undisturbed pair
    ([0x5A, 1, 2, 3].map (fun b => (true, .byte b)) ++
      [0x5A, 1, 2, 3].map (fun b => (false, .byte b))) true :=
  (undisturbed_of_ownCount pair _ (by decide +kernel)).1 true

/-- A frame of the largest size comes while the other receiver is at its first data byte. -/
def overrun : List (Bool × DecoderStep) :=
  [0x5A, 3].map (fun b => (true, .byte b)) ++
    (0x5A :: 31 :: List.replicate 31 0x11).map (fun b => (false, .byte b)) ++
    [(true, .byte 1), (false, .byte 0)]

/-- The first receiver takes its first data byte for the last one, and the checksum of the second
one is written behind its receive buffer. -/
theorem not_undisturbed_overrun :
    ¬ Undisturbed pair overrun true ∧ ¬ machine.AllSteps InBuffer pair.start overrun := by
  refine ⟨fun hsame => ?_, by decide +kernel⟩
  have hjoint : (machine.run pair.start overrun).map (fun p => (p.1.members true).protostat) =
      some .statRecvData := by decide +kernel
  have halone : (machine.run pair.start (overrun.filter (·.1 = true))).map
      (fun p => (p.1.members true).protostat) = some .statRecvSize := by decide +kernel
  obtain ⟨p, hp, hstat⟩ := Option.map_eq_some_iff.1 hjoint
  obtain ⟨q, hq, hstat'⟩ := Option.map_eq_some_iff.1 halone
  rw [(hsame p q hp hq).2, hstat'] at hstat
  cases hstat

end VirtualReceiver

end UavTelemetry
