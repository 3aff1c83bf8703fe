import HftFixEngine.Common.SPSCFifo

set_option autoImplicit false

namespace HftFixEngine.Common

namespace SPSCQueue

variable {T : Type} (capacity : Capacity) (movedFrom : T → T)

def items (queue : SPSCQueue T) : List T :=
  Slots.ring queue.buffer capacity.size queue.readPos (queue.size capacity)

def store (queue : SPSCQueue T) (item : T) : SPSCQueue T :=
  let currentWrite := queue.writePos
  { queue with
    buffer := Function.update queue.buffer currentWrite item
    writePos := capacity.wrap (currentWrite + 1) }

def push (queue : SPSCQueue T) (item : T) : Bool × SPSCQueue T :=
  let currentWrite := queue.writePos
  let nextWrite := capacity.wrap (currentWrite + 1)
  if nextWrite = queue.cachedReadPos then
    let queue := { queue with cachedReadPos := queue.readPos }
    if nextWrite = queue.cachedReadPos then (false, queue) else (true, queue.store capacity item)
  else (true, queue.store capacity item)

def load (queue : SPSCQueue T) : Option T × SPSCQueue T :=
  let currentRead := queue.readPos
  let item := queue.buffer currentRead
  (some item,
    { queue with
      buffer := Function.update queue.buffer currentRead (movedFrom item)
      readPos := capacity.wrap (currentRead + 1) })

-- No item stands for the result `false`.
def pop (queue : SPSCQueue T) : Option T × SPSCQueue T :=
  let currentRead := queue.readPos
  if currentRead = queue.cachedWritePos then
    let queue := { queue with cachedWritePos := queue.writePos }
    if currentRead = queue.cachedWritePos then (none, queue) else queue.load capacity movedFrom
  else queue.load capacity movedFrom

def moveBatch (queue : SPSCQueue T) (available maxItems : Nat) : Nat × List T × SPSCQueue T :=
  let currentRead := queue.readPos
  let count := min available maxItems
  let tailLen := capacity.size - currentRead
  let firstChunk := min count tailLen
  let first := Slots.moveFrom movedFrom queue.buffer currentRead firstChunk
  let second :=
    if count > firstChunk then Slots.moveFrom movedFrom first.2 0 (count - firstChunk)
    else ([], first.2)
  (count, first.1 ++ second.1,
    { queue with
      buffer := second.2
      readPos := capacity.wrap (currentRead + count) })

def popBatch (queue : SPSCQueue T) (maxItems : Nat) : Nat × List T × SPSCQueue T :=
  let currentRead := queue.readPos
  let writePos := queue.cachedWritePos
  if currentRead = writePos then
    let writePos := queue.writePos
    let queue := { queue with cachedWritePos := writePos }
    if currentRead = writePos then (0, [], queue)
    else queue.moveBatch capacity movedFrom (capacity.available writePos currentRead) maxItems
  else queue.moveBatch capacity movedFrom (capacity.available writePos currentRead) maxItems

def copyBatch (queue : SPSCQueue T) (freeSlots : Nat) (items : List T) : Nat × SPSCQueue T :=
  let currentWrite := queue.writePos
  let toPush := min freeSlots items.length
  let tailLen := capacity.size - currentWrite
  let firstChunk := min toPush tailLen
  let buffer := Slots.copyTo queue.buffer currentWrite (items.take firstChunk)
  let buffer :=
    if toPush > firstChunk then Slots.copyTo buffer 0 ((items.take toPush).drop firstChunk)
    else buffer
  (toPush, { queue with buffer, writePos := capacity.wrap (currentWrite + toPush) })

-- The list is the array of `count` items.
def pushBatch (queue : SPSCQueue T) (items : List T) : Nat × SPSCQueue T :=
  let currentWrite := queue.writePos
  let freeSlots := capacity.freeSlots queue.cachedReadPos currentWrite
  if freeSlots < items.length then
    let readPos := queue.readPos
    let queue := { queue with cachedReadPos := readPos }
    queue.copyBatch capacity (capacity.freeSlots readPos currentWrite) items
  else queue.copyBatch capacity freeSlots items

def pushEach (queue : SPSCQueue T) : List T → Nat × SPSCQueue T
  | [] => (0, queue)
  | item :: items =>
    let pushed := queue.push capacity item
    if pushed.1 then
      let later := pushed.2.pushEach items
      (later.1 + 1, later.2)
    else (0, pushed.2)

def popEach (queue : SPSCQueue T) : Nat → List T × SPSCQueue T
  | 0 => ([], queue)
  | count + 1 =>
    let popped := queue.pop capacity movedFrom
    match popped.1 with
    | some item =>
      let later := popped.2.popEach count
      (item :: later.1, later.2)
    | none => ([], popped.2)

end SPSCQueue

inductive QueueCall (T : Type) where
  | push (item : T)
  | pushBatch (items : List T)
  | pop
  | popBatch (maxItems : Nat)

namespace SPSCQueue

variable {T : Type}

def call (capacity : Capacity) (movedFrom : T → T) (queue : SPSCQueue T) :
    QueueCall T → SPSCQueue T
  | .push item => (queue.push capacity item).2
  | .pushBatch items => (queue.pushBatch capacity items).2
  | .pop => (queue.pop capacity movedFrom).2
  | .popBatch maxItems => (queue.popBatch capacity movedFrom maxItems).2.2

def afterCalls (capacity : Capacity) (movedFrom : T → T) (cells : Nat → T)
    (calls : List (QueueCall T)) : SPSCQueue T :=
  calls.foldl (call capacity movedFrom) { buffer := cells }

def copiedIn (capacity : Capacity) (queue : SPSCQueue T) (published : Nat) (xs : List T) :
    SPSCQueue T :=
  { queue with
    buffer := Ring.copy capacity.size queue.buffer published xs
    writePos := (published + xs.length) % capacity.size }

def movedOut (capacity : Capacity) (movedFrom : T → T) (queue : SPSCQueue T)
    (released count : Nat) : List T × SPSCQueue T :=
  let moved := Ring.move movedFrom capacity.size queue.buffer released count
  (moved.1,
    { queue with
      buffer := moved.2
      readPos := (released + count) % capacity.size })

structure Counted (capacity : Capacity) (queue : SPSCQueue T) (released published : Nat) : Prop where
  writePos : queue.writePos = published % capacity.size
  readPos : queue.readPos = released % capacity.size
  order : released ≤ published
  room : published < released + capacity.size
  cachedReadPos : ∃ seen ≤ released, published < seen + capacity.size ∧
    queue.cachedReadPos = seen % capacity.size
  cachedWritePos : ∃ seen ≤ published, released ≤ seen ∧
    queue.cachedWritePos = seen % capacity.size

namespace Counted

variable {capacity : Capacity} {movedFrom : T → T} {queue : SPSCQueue T} {released published : Nat}

theorem start (cells : Nat → T) : Counted capacity { buffer := cells } 0 0 := by
  have positive := Nat.lt_of_succ_lt capacity.atLeastTwo
  constructor
  case writePos => simp
  case readPos => simp
  case order => exact Nat.le_refl _
  case room => simpa using positive
  case cachedReadPos => exact ⟨0, Nat.le_refl _, by simpa using positive, by simp⟩
  case cachedWritePos => exact ⟨0, Nat.le_refl _, Nat.le_refl _, by simp⟩

theorem available_eq (ok : Counted capacity queue released published) :
    capacity.available queue.writePos queue.readPos = published - released := by
  rw [ok.writePos, ok.readPos]
  exact capacity.available_index ok.order ok.room

theorem size_eq (ok : Counted capacity queue released published) :
    queue.size capacity = published - released :=
  ok.available_eq

theorem items_eq (ok : Counted capacity queue released published) :
    queue.items capacity = Slots.ring queue.buffer capacity.size released (published - released) := by
  rw [items, ok.size_eq, ok.readPos, Slots.ring_mod]

theorem freeSlots_cached (ok : Counted capacity queue released published) {seen : Nat}
    (stale : seen ≤ released) (ahead : published < seen + capacity.size)
    (cached : queue.cachedReadPos = seen % capacity.size) :
    capacity.freeSlots queue.cachedReadPos queue.writePos = seen + capacity.size - 1 - published := by
  rw [ok.writePos, cached]
  exact capacity.freeSlots_index (stale.trans ok.order) ahead

theorem freeSlots_eq (ok : Counted capacity queue released published) :
    capacity.freeSlots queue.readPos queue.writePos = released + capacity.size - 1 - published := by
  rw [ok.writePos, ok.readPos]
  exact capacity.freeSlots_index ok.order ok.room

theorem available_cached (ok : Counted capacity queue released published) {seen : Nat}
    (stale : seen ≤ published) (behind : released ≤ seen)
    (cached : queue.cachedWritePos = seen % capacity.size) :
    capacity.available queue.cachedWritePos queue.readPos = seen - released := by
  rw [ok.readPos, cached]
  exact capacity.available_index behind (Nat.lt_of_le_of_lt stale ok.room)

-- A cached index may be brought up to date at any time.
theorem refreshRead (ok : Counted capacity queue released published) :
    Counted capacity { queue with cachedReadPos := queue.readPos } released published :=
  { ok with cachedReadPos := ⟨released, Nat.le_refl _, ok.room, ok.readPos⟩ }

theorem refreshWrite (ok : Counted capacity queue released published) :
    Counted capacity { queue with cachedWritePos := queue.writePos } released published :=
  { ok with cachedWritePos := ⟨published, Nat.le_refl _, ok.order, ok.writePos⟩ }

theorem copiedIn (ok : Counted capacity queue released published) (xs : List T) {seen : Nat}
    (stale : seen ≤ released) (fits : published + xs.length < seen + capacity.size)
    (cached : queue.cachedReadPos = seen % capacity.size) :
    Counted capacity (queue.copiedIn capacity published xs) released (published + xs.length) ∧
      (queue.copiedIn capacity published xs).items capacity = queue.items capacity ++ xs := by
  have order := ok.order
  obtain ⟨read, recent, behind, index⟩ := ok.cachedWritePos
  have counted :
      Counted capacity (queue.copiedIn capacity published xs) released (published + xs.length) := by
    constructor
    case writePos => rfl
    case readPos => exact ok.readPos
    case order => omega
    case room => omega
    case cachedReadPos => exact ⟨seen, stale, fits, cached⟩
    case cachedWritePos => exact ⟨read, by omega, behind, index⟩
  refine ⟨counted, ?_⟩
  rw [counted.items_eq, ok.items_eq]
  exact Ring.ring_copy queue.buffer order (by omega)

theorem movedOut (ok : Counted capacity queue released published) (movedFrom : T → T) (count : Nat)
    {seen : Nat}
    (stale : seen ≤ published) (unread : released + count ≤ seen)
    (cached : queue.cachedWritePos = seen % capacity.size) :
    let out := queue.movedOut capacity movedFrom released count
    Counted capacity out.2 (released + count) published ∧ out.1.length = count ∧
      queue.items capacity = out.1 ++ out.2.items capacity := by
  intro out
  have room := ok.room
  obtain ⟨write, recent, ahead, index⟩ := ok.cachedReadPos
  have counted : Counted capacity out.2 (released + count) published := by
    constructor
    case writePos => exact ok.writePos
    case readPos => rfl
    case order => omega
    case room => omega
    case cachedReadPos => exact ⟨write, by omega, ahead, index⟩
    case cachedWritePos => exact ⟨seen, stale, unread, cached⟩
  obtain ⟨moved, behind⟩ : out.1 = Slots.ring queue.buffer capacity.size released count ∧
      Slots.ring out.2.buffer capacity.size (released + count) (published - (released + count)) =
        Slots.ring queue.buffer capacity.size (released + count) (published - (released + count)) :=
    Ring.ring_move queue.buffer (by omega)
  refine ⟨counted, ?_, ?_⟩
  next => rw [moved, Slots.ring_length]
  next =>
    rw [ok.items_eq, counted.items_eq, moved, behind, ← Slots.ring_add]
    congr 1
    omega

theorem store_eq (ok : Counted capacity queue released published) (item : T) :
    queue.store capacity item = queue.copiedIn capacity published [item] := by
  simp only [store, SPSCQueue.copiedIn, Ring.copy, ok.writePos, capacity.wrap_index,
    List.length_singleton]

theorem load_eq (ok : Counted capacity queue released published) :
    queue.load capacity movedFrom =
      let out := queue.movedOut capacity movedFrom released 1
      (out.1.head?, out.2) := by
  simp only [load, SPSCQueue.movedOut, Ring.move, ok.readPos, capacity.wrap_index,
    List.head?_cons]

theorem copyBatch_eq (ok : Counted capacity queue released published) (items : List T)
    {freeSlots : Nat} (fits : freeSlots ≤ capacity.size) :
    queue.copyBatch capacity freeSlots items =
      (min freeSlots items.length,
        queue.copiedIn capacity published (items.take (min freeSlots items.length))) := by
  let toPush := min freeSlots items.length
  let xs := items.take toPush
  let firstChunk := min toPush (capacity.size - published % capacity.size)
  have length : xs.length = toPush := List.length_take_of_le (Nat.min_le_right _ _)
  have first : items.take firstChunk = xs.take firstChunk := by
    rw [List.take_take, Nat.min_eq_left (Nat.min_le_left _ _)]
  have chunks := Ring.copyTo_chunks queue.buffer published
    (by omega : xs.length ≤ capacity.size)
  rw [length] at chunks
  have second (cells : Nat → T) :
      (if toPush > firstChunk then Slots.copyTo cells 0 (xs.drop firstChunk) else cells) =
        Slots.copyTo cells 0 (xs.drop firstChunk) := by
    split
    next => rfl
    next none =>
      rw [List.drop_eq_nil_of_le (by omega)]
      rfl
  simp only [copyBatch, ok.writePos, capacity.wrap_index, SPSCQueue.copiedIn]
  rw [first, second, chunks, length]

theorem moveBatch_eq (ok : Counted capacity queue released published) (maxItems : Nat)
    {available : Nat} (fits : available ≤ capacity.size) :
    queue.moveBatch capacity movedFrom available maxItems =
      (min available maxItems,
        queue.movedOut capacity movedFrom released (min available maxItems)) := by
  let count := min available maxItems
  let firstChunk := min count (capacity.size - released % capacity.size)
  have chunks := Ring.moveFrom_chunks movedFrom queue.buffer released
    (by omega : count ≤ capacity.size)
  have second (cells : Nat → T) :
      (if count > firstChunk then Slots.moveFrom movedFrom cells 0 (count - firstChunk)
        else ([], cells)) = Slots.moveFrom movedFrom cells 0 (count - firstChunk) := by
    split
    next => rfl
    next none =>
      rw [Nat.sub_eq_zero_of_le (by omega)]
      rfl
  simp only [moveBatch, ok.readPos, capacity.wrap_index, SPSCQueue.movedOut]
  rw [second, ← chunks]

theorem store (ok : Counted capacity queue released published) (item : T) {seen : Nat}
    (stale : seen ≤ released) (room : published + 1 < seen + capacity.size)
    (cached : queue.cachedReadPos = seen % capacity.size) :
    Counted capacity (queue.store capacity item) released (published + 1) ∧
      (queue.store capacity item).items capacity = queue.items capacity ++ [item] := by
  rw [ok.store_eq]
  exact ok.copiedIn [item] stale room cached

theorem push (ok : Counted capacity queue released published) (item : T) :
    let now := queue.push capacity item
    (now.1 = true ∧ published + 1 < released + capacity.size ∧
        Counted capacity now.2 released (published + 1) ∧
        now.2.items capacity = queue.items capacity ++ [item]) ∨
      (now.1 = false ∧ published + 1 = released + capacity.size ∧
        Counted capacity now.2 released published ∧
        now.2.items capacity = queue.items capacity) := by
  have order := ok.order
  obtain ⟨seen, stale, ahead, cached⟩ := ok.cachedReadPos
  unfold SPSCQueue.push
  dsimp only
  split
  next =>
    have refreshed := ok.refreshRead
    split
    next full =>
      rw [ok.writePos, ok.readPos, capacity.wrap_index, Ring.next_eq_iff order ok.room] at full
      exact .inr ⟨rfl, full, refreshed, rfl⟩
    next apart =>
      rw [ok.writePos, ok.readPos] at apart
      have room := push_room order ok.room apart
      obtain ⟨counted, grown⟩ := refreshed.store item (Nat.le_refl _) room ok.readPos
      exact .inl ⟨rfl, room, counted, grown⟩
  next apart =>
    rw [ok.writePos, cached] at apart
    have room := push_room (by omega) ahead apart
    obtain ⟨counted, grown⟩ := ok.store item stale room cached
    exact .inl ⟨rfl, by omega, counted, grown⟩

theorem copyBatch (ok : Counted capacity queue released published) (items : List T) {seen : Nat}
    (stale : seen ≤ released) (ahead : published < seen + capacity.size)
    (cached : queue.cachedReadPos = seen % capacity.size) :
    let now := queue.copyBatch capacity (seen + capacity.size - 1 - published) items
    now.1 = min (seen + capacity.size - 1 - published) items.length ∧
      Counted capacity now.2 released (published + now.1) ∧
      now.2.items capacity = queue.items capacity ++ items.take now.1 := by
  have order := ok.order
  rw [ok.copyBatch_eq items (by omega)]
  have length : (items.take (min (seen + capacity.size - 1 - published) items.length)).length =
      min (seen + capacity.size - 1 - published) items.length :=
    List.length_take_of_le (Nat.min_le_right _ _)
  have taken := ok.copiedIn (items.take (min (seen + capacity.size - 1 - published) items.length))
    stale (by omega) cached
  rw [length] at taken
  exact ⟨rfl, taken⟩

theorem freeSlots_le (ok : Counted capacity queue released published) :
    capacity.freeSlots queue.cachedReadPos queue.writePos ≤ capacity.size ∧
      capacity.freeSlots queue.readPos queue.writePos ≤ capacity.size := by
  have order := ok.order
  obtain ⟨seen, stale, ahead, cached⟩ := ok.cachedReadPos
  rw [ok.freeSlots_cached stale ahead cached, ok.freeSlots_eq]
  omega

theorem pushBatch (ok : Counted capacity queue released published) (items : List T) :
    let now := queue.pushBatch capacity items
    now.1 = min items.length (released + capacity.size - 1 - published) ∧
      Counted capacity now.2 released (published + now.1) ∧
      now.2.items capacity = queue.items capacity ++ items.take now.1 := by
  have order := ok.order
  obtain ⟨seen, stale, ahead, cached⟩ := ok.cachedReadPos
  unfold SPSCQueue.pushBatch
  dsimp only
  rw [ok.freeSlots_cached stale ahead cached, ok.freeSlots_eq]
  split
  next =>
    obtain ⟨count, counted, grown⟩ :=
      ok.refreshRead.copyBatch items (Nat.le_refl _) ok.room ok.readPos
    exact ⟨count.trans (Nat.min_comm _ _), counted, grown⟩
  next fits =>
    obtain ⟨count, counted, grown⟩ := ok.copyBatch items stale ahead cached
    exact ⟨by omega, counted, grown⟩

theorem load (ok : Counted capacity queue released published) (movedFrom : T → T) {seen : Nat}
    (stale : seen ≤ published) (unread : released + 1 ≤ seen)
    (cached : queue.cachedWritePos = seen % capacity.size) :
    ∃ item, (queue.load capacity movedFrom).1 = some item ∧
      Counted capacity (queue.load capacity movedFrom).2 (released + 1) published ∧
      queue.items capacity = item :: (queue.load capacity movedFrom).2.items capacity := by
  obtain ⟨counted, length, split⟩ := ok.movedOut movedFrom 1 stale unread cached
  obtain ⟨item, only⟩ := List.length_eq_one_iff.mp length
  rw [only] at split
  rw [ok.load_eq]
  exact ⟨item, congrArg List.head? only, counted, split⟩

theorem pop (ok : Counted capacity queue released published) (movedFrom : T → T) :
    let now := queue.pop capacity movedFrom
    (∃ item, now.1 = some item ∧ Counted capacity now.2 (released + 1) published ∧
        queue.items capacity = item :: now.2.items capacity) ∨
      (now.1 = none ∧ released = published ∧ Counted capacity now.2 released published ∧
        now.2.items capacity = queue.items capacity) := by
  have order := ok.order
  have room := ok.room
  obtain ⟨seen, stale, behind, cached⟩ := ok.cachedWritePos
  unfold SPSCQueue.pop
  dsimp only
  split
  next =>
    have refreshed := ok.refreshWrite
    split
    next none =>
      rw [ok.writePos, ok.readPos, Ring.index_eq_iff order room] at none
      exact .inr ⟨rfl, none, refreshed, rfl⟩
    next apart =>
      rw [ok.writePos, ok.readPos, Ring.index_eq_iff order room] at apart
      exact .inl (refreshed.load movedFrom (Nat.le_refl _) (by omega) ok.writePos)
  next apart =>
    rw [ok.readPos, cached, Ring.index_eq_iff behind (by omega)] at apart
    exact .inl (ok.load movedFrom stale (by omega) cached)

theorem moveBatch (ok : Counted capacity queue released published) (movedFrom : T → T)
    (maxItems : Nat) {seen : Nat} (stale : seen ≤ published) (behind : released ≤ seen)
    (cached : queue.cachedWritePos = seen % capacity.size) :
    let now := queue.moveBatch capacity movedFrom (seen - released) maxItems
    now.1 = min (seen - released) maxItems ∧ now.2.1.length = now.1 ∧
      Counted capacity now.2.2 (released + now.1) published ∧
      queue.items capacity = now.2.1 ++ now.2.2.items capacity := by
  have room := ok.room
  rw [ok.moveBatch_eq maxItems (by omega)]
  obtain ⟨counted, length, split⟩ :=
    ok.movedOut movedFrom (min (seen - released) maxItems) stale (by omega) cached
  exact ⟨rfl, length, counted, split⟩

theorem available_le (ok : Counted capacity queue released published) :
    capacity.available queue.cachedWritePos queue.readPos ≤ capacity.size ∧
      capacity.available queue.writePos queue.readPos ≤ capacity.size := by
  have room := ok.room
  obtain ⟨seen, stale, behind, cached⟩ := ok.cachedWritePos
  rw [ok.available_cached stale behind cached, ok.available_eq]
  omega

theorem popBatch (ok : Counted capacity queue released published) (movedFrom : T → T)
    (maxItems : Nat) :
    let now := queue.popBatch capacity movedFrom maxItems
    now.1 ≤ min (published - released) maxItems ∧
      (released < published → 0 < maxItems → 0 < now.1) ∧ now.2.1.length = now.1 ∧
      Counted capacity now.2.2 (released + now.1) published ∧
      queue.items capacity = now.2.1 ++ now.2.2.items capacity := by
  have order := ok.order
  have room := ok.room
  obtain ⟨seen, stale, behind, cached⟩ := ok.cachedWritePos
  unfold SPSCQueue.popBatch
  dsimp only
  rw [ok.available_cached stale behind cached, ok.available_eq]
  split
  next =>
    have refreshed := ok.refreshWrite
    split
    next none =>
      rw [ok.writePos, ok.readPos, Ring.index_eq_iff order room] at none
      exact ⟨Nat.zero_le _, fun some => absurd none (Nat.ne_of_lt some), rfl, refreshed, rfl⟩
    next =>
      obtain ⟨count, length, counted, split⟩ :=
        refreshed.moveBatch movedFrom maxItems (Nat.le_refl _) order ok.writePos
      exact ⟨Nat.le_of_eq count, fun some asked => by omega, length, counted, split⟩
  next apart =>
    rw [ok.readPos, cached, Ring.index_eq_iff behind (by omega)] at apart
    obtain ⟨count, length, counted, split⟩ :=
      ok.moveBatch movedFrom maxItems stale behind cached
    exact ⟨by omega, fun _ asked => by omega, length, counted, split⟩

theorem call (ok : Counted capacity queue released published) (movedFrom : T → T)
    (call : QueueCall T) :
    ∃ released published,
      Counted capacity (queue.call capacity movedFrom call) released published := by
  cases call with
  | push item =>
    obtain ⟨-, -, counted, -⟩ | ⟨-, -, counted, -⟩ := ok.push item
    next => exact ⟨_, _, counted⟩
    next => exact ⟨_, _, counted⟩
  | pushBatch items => exact ⟨_, _, (ok.pushBatch items).2.1⟩
  | pop =>
    obtain ⟨-, -, counted, -⟩ | ⟨-, -, counted, -⟩ := ok.pop movedFrom
    next => exact ⟨_, _, counted⟩
    next => exact ⟨_, _, counted⟩
  | popBatch maxItems => exact ⟨_, _, (ok.popBatch movedFrom maxItems).2.2.2.1⟩

theorem afterCalls (movedFrom : T → T) (cells : Nat → T) (calls : List (QueueCall T)) :
    ∃ released published,
      Counted capacity (afterCalls capacity movedFrom cells calls) released published := by
  let Reached (queue : SPSCQueue T) : Prop :=
    ∃ released published, Counted capacity queue released published
  have initially : Reached { buffer := cells } := ⟨0, 0, start cells⟩
  refine List.foldlRecOn (motive := Reached) calls _ initially ?_
  rintro queue ⟨released, published, ok⟩ call _
  exact ok.call movedFrom call

theorem pushEach (ok : Counted capacity queue released published) (items : List T) :
    let each := queue.pushEach capacity items
    each.1 = min items.length (released + capacity.size - 1 - published) ∧
      each.2.items capacity = queue.items capacity ++ items.take each.1 := by
  induction items generalizing queue published with
  | nil => simp [SPSCQueue.pushEach]
  | cons item items ih =>
    obtain ⟨accepted, room, counted, grown⟩ | ⟨refused, full, counted, same⟩ := ok.push item
    next =>
      obtain ⟨count, later⟩ := ih counted
      simp only [SPSCQueue.pushEach, accepted, if_true, List.length_cons]
      refine ⟨by omega, ?_⟩
      rw [later, grown, List.append_assoc]
      rfl
    next =>
      simp only [SPSCQueue.pushEach, refused, Bool.false_eq_true, if_false]
      refine ⟨by omega, ?_⟩
      rw [same, List.take_zero, List.append_nil]

theorem popEach (ok : Counted capacity queue released published) (movedFrom : T → T) {count : Nat}
    (waiting : released + count ≤ published) :
    let each := queue.popEach capacity movedFrom count
    each.1.length = count ∧ queue.items capacity = each.1 ++ each.2.items capacity := by
  induction count generalizing queue released with
  | zero => exact ⟨rfl, rfl⟩
  | succ count ih =>
    obtain ⟨item, given, counted, split⟩ | ⟨-, empty, -, -⟩ := ok.pop movedFrom
    next =>
      obtain ⟨length, later⟩ := ih counted (by omega)
      simp only [SPSCQueue.popEach, given, List.length_cons]
      refine ⟨by omega, ?_⟩
      rw [split, List.cons_append, ← later]
    next => omega

end Counted

theorem batch_agrees (capacity : Capacity) (movedFrom : T → T) (cells : Nat → T)
    (calls : List (QueueCall T)) :
    let queue := afterCalls capacity movedFrom cells calls
    (∀ items : List T,
      let batch := queue.pushBatch capacity items
      let each := queue.pushEach capacity items
      batch.1 = min items.length (capacity.size - 1 - queue.size capacity) ∧
        each.1 = batch.1 ∧ batch.2.items capacity = each.2.items capacity) ∧
    ∀ maxItems : Nat,
      let batch := queue.popBatch capacity movedFrom maxItems
      let each := queue.popEach capacity movedFrom batch.1
      batch.1 ≤ min (queue.size capacity) maxItems ∧
        (0 < queue.size capacity → 0 < maxItems → 1 ≤ batch.1) ∧
        batch.2.1 = (queue.items capacity).take batch.1 ∧
        each.1 = batch.2.1 ∧ each.1.length = batch.1 ∧
        batch.2.2.items capacity = each.2.items capacity := by
  intro queue
  obtain ⟨released, published, ok⟩ :
      ∃ released published, Counted capacity queue released published :=
    Counted.afterCalls movedFrom cells calls
  have order := ok.order
  have room := ok.room
  have size : queue.size capacity = published - released := ok.size_eq
  constructor
  next =>
    intro items batch each
    obtain ⟨taken, -, grown⟩ :
        batch.1 = min items.length (released + capacity.size - 1 - published) ∧ _ :=
      ok.pushBatch items
    obtain ⟨one_by_one, later⟩ := ok.pushEach items
    have same : each.1 = batch.1 := one_by_one.trans taken.symm
    refine ⟨by rw [size]; omega, same, ?_⟩
    rw [grown, later, same]
  next =>
    intro maxItems batch each
    obtain ⟨most, least, length, -, split⟩ : batch.1 ≤ min (published - released) maxItems ∧ _ :=
      ok.popBatch movedFrom maxItems
    obtain ⟨one_by_one, later⟩ := ok.popEach movedFrom (by omega : released + batch.1 ≤ published)
    obtain ⟨same, rest⟩ := List.append_inj (split.symm.trans later) (length.trans one_by_one.symm)
    refine ⟨size ▸ most, ?_, ?_, same.symm, one_by_one, rest⟩
    next =>
      rw [size]
      intro some asked
      exact least (by omega) asked
    next => rw [split, ← length, List.take_left]

example :
    (afterCalls ⟨4, by decide, by decide⟩ id (fun _ => 0)
      [.pushBatch [1, 2, 3, 4, 5], .popBatch 2, .push 6, .pushBatch [7, 8]]).items
        ⟨4, by decide, by decide⟩ = [3, 6, 7] := by
  decide

end SPSCQueue

end HftFixEngine.Common
