import UavTelemetry.Data.Chain
import UavTelemetry.LTS.Basic

/-!
# The class `List<T>`

`List.h` manages doubly linked lists of pointers to objects of any type.  This file translates all
of it: the limit of the number of items, the exceptions, and what becomes of a call without
memory.  The objects themselves are never read, so the type `ι` stands for the addresses of
objects of type `T`, and `Option ι` for the pointers.

`THROW` stores an exception, if the caller passed a pointer to one, and the code goes on behind
it.

## Main definitions

* `LinkedList ι` : the object of class `List<T>`, its links, and the log of `free`.
* `LinkedList.addItem` and the other operations, under the names of `List.h`.
* `LinkedList.Call`, `LinkedList.perform` : a call of any operation, and its answer.
* `LinkedList.machine` : the runs of a list.
-/

namespace UavTelemetry

namespace LinkedList

/-- `List<T>::Exception`. -/
inductive Exception
  | noErrors
  | nullPointer
  | limitExceeded
  | outOfMemory
  | itemNotFound
  deriving DecidableEq, Repr

/-- `THROW`: the variable that the caller passed a pointer to, if any, is overwritten. -/
def Exception.throw (error : Exception) (exception : Option Exception) : Option Exception :=
  exception.map fun _ => error

end LinkedList

/-- An object of class `List<T>`, and its links. -/
structure LinkedList (ι : Type) where
  /-- `_first`. -/
  first : Option Addr
  /-- `_last`. -/
  last : Option Addr
  /-- `_search`, the cursor of the search operations. -/
  search : Option Addr
  /-- `_count`; each item has a link of its own in memory, so that it stays below `2 ^ 32`. -/
  count : ℕ
  /-- `_numItems`. -/
  numItems : UInt32
  /-- The blocks of type `ListItem`. -/
  nodes : Store (Link (Option ι))
  /-- The blocks given to `free`, in order. -/
  freed : List Addr
  deriving DecidableEq, Repr

namespace LinkedList

variable {ι : Type}

/-- `List::List`. -/
def new : LinkedList ι := ⟨none, none, none, 0, 0xFFFFFFFF, .empty, []⟩

/-- `List::setLimit`, where the first exception is misspelt as `NO_ERROS`. -/
def setLimit (l : LinkedList ι) (numItems : UInt32) (exception : Option Exception) :
    LinkedList ι × Option Exception :=
  let exception := Exception.noErrors.throw exception
  let exception :=
    if numItems = 0 then Exception.nullPointer.throw exception else exception
  ({ l with numItems := numItems }, exception)

/-- The check with which the operations on an item start. -/
def checkItem (item : Option ι) (exception : Option Exception) : Option Exception :=
  let exception := Exception.noErrors.throw exception
  if item.isNone then Exception.nullPointer.throw exception else exception

/-- What `List::addItem` reports; `memory` says whether `malloc` finds a block. -/
def addException (l : LinkedList ι) (item : Option ι) (memory : Bool)
    (exception : Option Exception) : Option Exception :=
  let exception := checkItem item exception
  let exception :=
    if l.numItems.toNat ≤ l.count then Exception.limitExceeded.throw exception else exception
  if memory then exception else Exception.outOfMemory.throw exception

/-- `List::addItem`.  The new block is written through `listitem`, which is null without memory. -/
def addItem (l : LinkedList ι) (item : Option ι) (memory : Bool) (exception : Option Exception) :
    Except Fault (LinkedList ι × Option Exception) := do
  let exception := l.addException item memory exception
  let listitem := if memory then some l.nodes.fresh else none
  let nodes := if memory then l.nodes.alloc ⟨none, none, none⟩ else l.nodes
  let nodes ← nodes.update listitem fun block => { block with item := item }
  if l.count = 0 then
    let nodes ← nodes.update listitem fun block => { block with prev := none, next := none }
    return ({ l with
      first := listitem
      last := listitem
      nodes := nodes
      count := l.count + 1 }, exception)
  else
    let nodes ← nodes.update l.last fun last => { last with next := listitem }
    let nodes ← nodes.update listitem fun block => { block with prev := l.last, next := none }
    return ({ l with last := listitem, nodes := nodes, count := l.count + 1 }, exception)

/-- `free(listitem)`. -/
def free (l : LinkedList ι) (listitem : Addr) : LinkedList ι :=
  { l with nodes := l.nodes.free listitem, freed := l.freed ++ [listitem] }

/-- `List::removeItem(ListItem *)`. -/
def removeNode (l : LinkedList ι) (listitem : Addr) : Except Fault (LinkedList ι) := do
  let node ← l.nodes.deref (some listitem)
  match node.prev, node.next with
  | none, none =>
    return { l with first := none, last := none, count := 0, search := none }.free listitem
  | none, some n =>
    let nodes ← l.nodes.update (some n) fun next => { next with prev := none }
    return { l with first := some n, nodes := nodes, count := l.count - 1 }.free listitem
  | some p, some n =>
    let nodes ← l.nodes.update (some p) fun prev => { prev with next := some n }
    let nodes ← nodes.update (some n) fun next => { next with prev := some p }
    return { l with nodes := nodes, count := l.count - 1 }.free listitem
  | some p, none =>
    let nodes ← l.nodes.update (some p) fun prev => { prev with next := none }
    return { l with last := some p, nodes := nodes, count := l.count - 1 }.free listitem

/-- A number of rounds within which every walk along the list ends. -/
def fuel (l : LinkedList ι) : ℕ := l.nodes.fresh + 1

/-- The loop of `List::~List`, which tests `_first` and removes `_last`, with the number of its
rounds. -/
def destructorLoop : ℕ → LinkedList ι → Except Fault (LinkedList ι × ℕ)
  | 0, _ => .error .diverges
  | fuel + 1, l =>
    match l.first, l.last with
    | none, _ => .ok (l, 0)
    | some _, none => .error .nullPointer
    | some _, some a => do
      let l ← l.removeNode a
      let (l, rounds) ← destructorLoop fuel l
      return (l, rounds + 1)

/-- `List::~List`. -/
def destructor (l : LinkedList ι) : Except Fault (LinkedList ι × ℕ) := destructorLoop l.fuel l

/-- `List::getItemCount`. -/
def getItemCount (l : LinkedList ι) : ℕ := l.count

/-- `List::getFirstItem`. -/
def getFirstItem (l : LinkedList ι) : Except Fault (LinkedList ι × Option ι) :=
  let l := { l with search := l.first }
  match l.search with
  | none => .ok (l, none)
  | some a => do
    let node ← l.nodes.deref (some a)
    return (l, node.item)

/-- `List::getNextItem`. -/
def getNextItem (l : LinkedList ι) : Except Fault (LinkedList ι × Option ι) :=
  match l.search with
  | none => .ok (l, none)
  | some a => do
    let node ← l.nodes.deref (some a)
    let l := { l with search := node.next }
    match l.search with
    | none => return (l, none)
    | some a =>
      let node ← l.nodes.deref (some a)
      return (l, node.item)

section

variable [DecidableEq ι]

/-- The loop of `List::removeItem(T *)`, which tests its link only after the first round. -/
def removeLoop (l : LinkedList ι) (item : Option ι) (exception : Option Exception) :
    ℕ → Option Addr → Except Fault (LinkedList ι × Option Exception)
  | 0, _ => .error .diverges
  | _ + 1, none => .error .nullPointer
  | fuel + 1, some a => do
    let node ← l.nodes.deref (some a)
    if node.item = item then
      let l ← l.removeNode a
      return (l, exception)
    else
      match node.next with
      | none => return (l, Exception.itemNotFound.throw exception)
      | some n => l.removeLoop item exception fuel (some n)

/-- `List::removeItem(T *)`. -/
def removeItem (l : LinkedList ι) (item : Option ι) (exception : Option Exception) :
    Except Fault (LinkedList ι × Option Exception) :=
  l.removeLoop item (checkItem item exception) l.fuel l.first

/-- The loop of `List::searchItem`, with the item at hand. -/
def searchLoop (item : Option ι) : ℕ → LinkedList ι → Option ι → Except Fault (LinkedList ι × Bool)
  | 0, _, _ => .error .diverges
  | fuel + 1, l, i =>
    if i = item then .ok (l, i.isSome)
    else do
      let (l, i) ← l.getNextItem
      if i.isNone then return (l, false)
      else searchLoop item fuel l i

/-- `List::searchItem`. -/
def searchItem (l : LinkedList ι) (item : Option ι) (exception : Option Exception) :
    Except Fault (LinkedList ι × Bool × Option Exception) := do
  let exception := checkItem item exception
  let (l, i) ← l.getFirstItem
  if i.isNone then return (l, false, exception)
  else
    let (l, found) ← searchLoop item l.fuel l i
    return (l, found, exception)

/-- A call of an operation of the list. -/
inductive Call (ι : Type)
  | setLimit (numItems : UInt32) (exception : Option Exception)
  | addItem (item : Option ι) (memory : Bool) (exception : Option Exception)
  | removeItem (item : Option ι) (exception : Option Exception)
  | getItemCount
  | getFirstItem
  | getNextItem
  | searchItem (item : Option ι) (exception : Option Exception)
  deriving DecidableEq, Repr

/-- What a call returns, with the exception that it leaves to its caller. -/
inductive Answer (ι : Type)
  | done (exception : Option Exception)
  | count (n : ℕ)
  | item (i : Option ι)
  | found (b : Bool) (exception : Option Exception)
  deriving DecidableEq, Repr

/-- A call. -/
def perform (l : LinkedList ι) : Call ι → Except Fault (LinkedList ι × Answer ι)
  | .setLimit numItems exception =>
    let (l, exception) := l.setLimit numItems exception
    .ok (l, .done exception)
  | .addItem item memory exception => do
    let (l, exception) ← l.addItem item memory exception
    return (l, .done exception)
  | .removeItem item exception => do
    let (l, exception) ← l.removeItem item exception
    return (l, .done exception)
  | .getItemCount => .ok (l, .count l.getItemCount)
  | .getFirstItem => do
    let (l, i) ← l.getFirstItem
    return (l, .item i)
  | .getNextItem => do
    let (l, i) ← l.getNextItem
    return (l, .item i)
  | .searchItem item exception => do
    let (l, found, exception) ← l.searchItem item exception
    return (l, .found found exception)

/-- The runs of a list: calls in any order.  A fault ends the run. -/
def machine : Machine (LinkedList ι) (Call ι) where
  step l c :=
    match l.perform c with
    | .error _ => none
    | .ok (l, _) => some l

end

end LinkedList

end UavTelemetry
