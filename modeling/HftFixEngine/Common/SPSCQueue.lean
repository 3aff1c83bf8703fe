import HftFixEngine.Shared.Ring

set_option autoImplicit false

namespace HftFixEngine.Common

-- The two static assertions of the class.
structure Capacity where
  size : Nat
  powerOfTwo : size &&& (size - 1) = 0
  atLeastTwo : 1 < size

namespace Capacity

variable (capacity : Capacity)

def wrap (n : Nat) : Nat := n &&& (capacity.size - 1)

@[simp]
theorem wrap_eq_mod (n : Nat) : capacity.wrap n = n % capacity.size :=
  Ring.mask_eq_mod capacity.powerOfTwo (Nat.lt_of_succ_lt capacity.atLeastTwo) n

theorem wrap_index (n k : Nat) : capacity.wrap (n % capacity.size + k) = (n + k) % capacity.size := by
  simp

def available (writePos currentRead : Nat) : Nat :=
  if writePos ≥ currentRead then writePos - currentRead
  else capacity.size - currentRead + writePos

def freeSlots (readPos currentWrite : Nat) : Nat :=
  if readPos > currentWrite then readPos - currentWrite - 1
  else capacity.size - currentWrite + readPos - 1

theorem available_index {read written : Nat} (order : read ≤ written)
    (near : written < read + capacity.size) :
    capacity.available (written % capacity.size) (read % capacity.size) = written - read :=
  Ring.distance_index order near

theorem freeSlots_index {read written : Nat} (order : read ≤ written)
    (near : written < read + capacity.size) :
    capacity.freeSlots (read % capacity.size) (written % capacity.size) =
      read + capacity.size - 1 - written := by
  have distance := Ring.distance_index order near
  have read_lt := Nat.mod_lt read (show 0 < capacity.size by omega)
  have written_lt := Nat.mod_lt written (show 0 < capacity.size by omega)
  unfold Ring.distance at distance
  unfold freeSlots
  split at distance <;> split <;> omega

end Capacity

structure SPSCQueue (T : Type) where
  writePos : Nat := 0
  cachedReadPos : Nat := 0
  buffer : Nat → T
  readPos : Nat := 0
  cachedWritePos : Nat := 0

namespace SPSCQueue

variable {T : Type} (capacity : Capacity) (queue : SPSCQueue T)

def empty : Bool := decide (queue.readPos = queue.writePos)

def canPush : Bool := decide (capacity.wrap (queue.writePos + 1) ≠ queue.readPos)

def size : Nat := capacity.available queue.writePos queue.readPos

end SPSCQueue

inductive Producer (T : Type) where
  | idle
  | push (item : T)
  | pushRefresh (item : T) (currentWrite : Nat)
  | pushCopy (item : T) (currentWrite : Nat)
  | pushStore (item : T) (currentWrite : Nat)
  | pushBatch (items : List T)
  | pushBatchRefresh (items : List T) (currentWrite : Nat)
  | pushBatchCopy (items : List T) (currentWrite copied : Nat)

inductive Consumer (T : Type) where
  | idle
  | pop
  | popRefresh (currentRead : Nat)
  | popCopy (currentRead : Nat)
  | popStore (currentRead : Nat) (item : T)
  | popBatch (maxItems : Nat)
  | popBatchRefresh (maxItems currentRead : Nat)
  | popBatchCopy (currentRead count : Nat) (outputItems : List T)

inductive CellState where
  | free
  | written
  | published
  deriving DecidableEq, Repr

-- A call is cut at its accesses to what the two threads share: the loads of the other thread's index,
-- the copy of each element, the store of its own index. Everything from `cells` on is ghost.
structure Execution (T : Type) extends SPSCQueue T where
  producer : Producer T := .idle
  consumer : Consumer T := .idle
  cells : Nat → CellState := fun _ => .free
  accepted : List T := []
  returned : List T := []
  badWrites : List Nat := []
  badReads : List Nat := []

namespace Execution

variable {T : Type} (capacity : Capacity) (movedFrom : T → T) (exec : Execution T)

def write (cell : Nat) (item : T) : Execution T :=
  { exec with
    buffer := Function.update exec.buffer cell item
    cells := Function.update exec.cells cell .written
    badWrites :=
      if cell < capacity.size ∧ exec.cells cell = .free then exec.badWrites
      else exec.badWrites ++ [cell] }

def publish (newWrite : Nat) (items : List T) : Execution T :=
  { exec with
    writePos := newWrite
    cells := fun cell => if exec.cells cell = .written then .published else exec.cells cell
    accepted := exec.accepted ++ items }

-- A move leaves its source in some state of its own.
def read (cell : Nat) : Execution T :=
  { exec with
    buffer := Function.update exec.buffer cell (movedFrom (exec.buffer cell))
    cells := Function.update exec.cells cell .free
    badReads :=
      if cell < capacity.size ∧ exec.cells cell = .published then exec.badReads
      else exec.badReads ++ [cell] }

def release (newRead : Nat) (items : List T) : Execution T :=
  { exec with
    readPos := newRead
    returned := exec.returned ++ items }

def startBatchCopy (items : List T) (currentWrite freeSlots : Nat) : Producer T :=
  let toPush := min freeSlots items.length
  .pushBatchCopy (items.take toPush) currentWrite 0

def produce : Execution T :=
  match exec.producer with
  | .idle => exec
  | .push item =>
    let currentWrite := exec.writePos
    let nextWrite := capacity.wrap (currentWrite + 1)
    { exec with
      producer :=
        if nextWrite = exec.cachedReadPos then .pushRefresh item currentWrite
        else .pushCopy item currentWrite }
  | .pushRefresh item currentWrite =>
    let nextWrite := capacity.wrap (currentWrite + 1)
    { exec with
      cachedReadPos := exec.readPos
      producer := if nextWrite = exec.readPos then .idle else .pushCopy item currentWrite }
  | .pushCopy item currentWrite =>
    { exec.write capacity currentWrite item with producer := .pushStore item currentWrite }
  | .pushStore item currentWrite =>
    { exec.publish (capacity.wrap (currentWrite + 1)) [item] with producer := .idle }
  | .pushBatch items =>
    let currentWrite := exec.writePos
    let freeSlots := capacity.freeSlots exec.cachedReadPos currentWrite
    { exec with
      producer :=
        if freeSlots < items.length then .pushBatchRefresh items currentWrite
        else startBatchCopy items currentWrite freeSlots }
  | .pushBatchRefresh items currentWrite =>
    let freeSlots := capacity.freeSlots exec.readPos currentWrite
    { exec with
      cachedReadPos := exec.readPos
      producer := startBatchCopy items currentWrite freeSlots }
  | .pushBatchCopy items currentWrite copied =>
    match items[copied]? with
    | some item =>
      let cell := Ring.chunkSlot capacity.size currentWrite items.length copied
      { exec.write capacity cell item with
        producer := .pushBatchCopy items currentWrite (copied + 1) }
    | none =>
      { exec.publish (capacity.wrap (currentWrite + items.length)) items with producer := .idle }

def startBatchMove (maxItems currentRead available : Nat) : Consumer T :=
  let count := min available maxItems
  .popBatchCopy currentRead count []

def consume : Execution T :=
  match exec.consumer with
  | .idle => exec
  | .pop =>
    let currentRead := exec.readPos
    { exec with
      consumer :=
        if currentRead = exec.cachedWritePos then .popRefresh currentRead
        else .popCopy currentRead }
  | .popRefresh currentRead =>
    { exec with
      cachedWritePos := exec.writePos
      consumer := if currentRead = exec.writePos then .idle else .popCopy currentRead }
  | .popCopy currentRead =>
    { exec.read capacity movedFrom currentRead with
      consumer := .popStore currentRead (exec.buffer currentRead) }
  | .popStore currentRead item =>
    { exec.release (capacity.wrap (currentRead + 1)) [item] with consumer := .idle }
  | .popBatch maxItems =>
    let currentRead := exec.readPos
    let writePos := exec.cachedWritePos
    { exec with
      consumer :=
        if currentRead = writePos then .popBatchRefresh maxItems currentRead
        else startBatchMove maxItems currentRead (capacity.available writePos currentRead) }
  | .popBatchRefresh maxItems currentRead =>
    let writePos := exec.writePos
    { exec with
      cachedWritePos := writePos
      consumer :=
        if currentRead = writePos then .idle
        else startBatchMove maxItems currentRead (capacity.available writePos currentRead) }
  | .popBatchCopy currentRead count outputItems =>
    if outputItems.length < count then
      let cell := Ring.chunkSlot capacity.size currentRead count outputItems.length
      { exec.read capacity movedFrom cell with
        consumer := .popBatchCopy currentRead count (outputItems ++ [exec.buffer cell]) }
    else
      { exec.release (capacity.wrap (currentRead + count)) outputItems with consumer := .idle }

end Execution

inductive Action (T : Type) where
  | push (item : T)
  | pushBatch (items : List T)
  | produce
  | pop
  | popBatch (maxItems : Nat)
  | consume

namespace Execution

variable {T : Type} (capacity : Capacity) (movedFrom : T → T)

def enterPush (exec : Execution T) (call : Producer T) : Execution T :=
  match exec.producer with
  | .idle => { exec with producer := call }
  | _ => exec

def enterPop (exec : Execution T) (call : Consumer T) : Execution T :=
  match exec.consumer with
  | .idle => { exec with consumer := call }
  | _ => exec

def act (exec : Execution T) : Action T → Execution T
  | .push item => exec.enterPush (.push item)
  | .pushBatch items => exec.enterPush (.pushBatch items)
  | .produce => exec.produce capacity
  | .pop => exec.enterPop .pop
  | .popBatch maxItems => exec.enterPop (.popBatch maxItems)
  | .consume => exec.consume capacity movedFrom

@[simp] theorem produce_consumer (exec : Execution T) :
    (exec.produce capacity).consumer = exec.consumer := by
  unfold produce
  split
  case h_8 => split <;> rfl
  all_goals rfl

@[simp] theorem consume_producer (exec : Execution T) :
    (exec.consume capacity movedFrom).producer = exec.producer := by
  unfold consume
  split
  case h_8 => split <;> rfl
  all_goals rfl

@[simp] theorem enterPush_consumer (exec : Execution T) (call : Producer T) :
    (exec.enterPush call).consumer = exec.consumer := by
  unfold enterPush
  split <;> rfl

@[simp] theorem enterPop_producer (exec : Execution T) (call : Consumer T) :
    (exec.enterPop call).producer = exec.producer := by
  unfold enterPop
  split <;> rfl

def run (cells : Nat → T) (actions : List (Action T)) : Execution T :=
  actions.foldl (act capacity movedFrom) { buffer := cells }

end Execution

end HftFixEngine.Common
