import DgxSpark.Library.Run

/-
This file embeds `prefetch_weights` of `spark_nvme/streaming.py`: the pump thread and its consumer over
a queue of one message, a semaphore and a stop flag.
-/

namespace DgxSpark.Nvme

/-- What a producer does when it is asked for its next item. -/
inductive Next (Item Error : Type) where
  | item (value : Item)
  | stop
  | raise (error : Error)

/-- A producer answers its calls in order; its `close` may raise. -/
structure Producer (Item Error : Type) where
  next : Nat → Next Item Error
  closeError : Option Error

inductive Message (Item Error : Type) where
  | tensor (value : Item)
  | done
  | error (error : Error)

/-- Where the pump stands. `put` is the head of its loop, `offer` the timed call of the queue. -/
inductive PumpPoint (Item Error : Type) where
  | check
  | acquire
  | recheck
  | advance
  | put (message : Message Item Error)
  | offer (message : Message Item Error)
  | close (terminal : Message Item Error)
  | exited

/-- How the generator ends. It is `stuck` when the pump does not join in time. -/
inductive Outcome (Error : Type) where
  | exhausted
  | raised (error : Error)
  | closed
  | stuck

/-- Where the consumer side of the generator stands; it waits at the `yield` of the item it holds. -/
inductive ConsumerPoint (Item Error : Type) where
  | get
  | release (message : Message Item Error)
  | holding (value : Item)
  | stopping (outcome : Outcome Error)
  | joining (outcome : Outcome Error)
  | ended (outcome : Outcome Error)

/-- The two threads and what they share. The last fields record the run: the items that the producer
made, those that the consumer got, the calls of `next` and `close`, whether the pump has seen the stop
flag, and whether the user closed the generator. -/
structure Prefetch (Item Error : Type) where
  ready : Option (Message Item Error)
  slot : Nat
  stop : Bool
  pump : PumpPoint Item Error
  consumer : ConsumerPoint Item Error
  produced : List Item
  received : List Item
  advances : Nat
  closes : Nat
  observed : Bool
  quit : Bool

/-- A step of a thread, an expired timeout, or a call of the user at the `yield`. -/
inductive PrefetchAction where
  | pump
  | pumpTimeout
  | consumer
  | joinTimeout
  | resume
  | close
deriving DecidableEq

namespace Prefetch

variable {Item Error : Type} (producer : Producer Item Error)

/-- The state after `thread.start()`. -/
def started : Prefetch Item Error where
  ready := none
  slot := 1
  stop := false
  pump := .check
  consumer := .get
  produced := []
  received := []
  advances := 0
  closes := 0
  observed := false
  quit := false

/-- The pump goes on after a `put`: an item leads back to the loop, the terminal message to the end. -/
def afterPut : Message Item Error → PumpPoint Item Error
  | .tensor _ => .check
  | .done => .exited
  | .error _ => .exited

/-- `close` of the producer; an exception replaces the terminal message. -/
def closedWith (terminal : Message Item Error) : Message Item Error :=
  match producer.closeError with
  | some error => .error error
  | none => terminal

def pumpStep (state : Prefetch Item Error) : Option (Prefetch Item Error) :=
  match state.pump with
  | .check =>
      if state.stop then some { state with pump := .close .done, observed := true }
      else some { state with pump := .acquire }
  | .acquire =>
      if 0 < state.slot then some { state with pump := .recheck, slot := state.slot - 1 } else none
  | .recheck =>
      if state.stop then some { state with pump := .close .done, observed := true }
      else some { state with pump := .advance }
  | .advance =>
      match producer.next state.advances with
      | .item value => some { state with
          pump := .put (.tensor value)
          produced := state.produced ++ [value]
          advances := state.advances + 1 }
      | .stop => some { state with pump := .close .done, advances := state.advances + 1 }
      | .raise error => some { state with pump := .close (.error error), advances := state.advances + 1 }
  | .put message =>
      if state.stop then some { state with pump := afterPut message, observed := true }
      else some { state with pump := .offer message }
  | .offer message =>
      match state.ready with
      | none => some { state with pump := afterPut message, ready := some message }
      | some _ => none
  | .close terminal =>
      some { state with pump := .put (closedWith producer terminal), closes := state.closes + 1 }
  | .exited => none

/-- A timed wait of the pump expires without success. -/
def pumpTimeout (state : Prefetch Item Error) : Option (Prefetch Item Error) :=
  match state.pump, state.ready with
  | .acquire, _ => if state.slot = 0 then some { state with pump := .check } else none
  | .offer message, some _ => some { state with pump := .put message }
  | _, _ => none

def itemOf : Message Item Error → List Item
  | .tensor value => [value]
  | .done => []
  | .error _ => []

/-- Where a message leads the generator. -/
def handle : Message Item Error → ConsumerPoint Item Error
  | .tensor value => .holding value
  | .done => .stopping .exhausted
  | .error error => .stopping (.raised error)

def consumerStep (state : Prefetch Item Error) : Option (Prefetch Item Error) :=
  match state.consumer with
  | .get => state.ready.map fun message => { state with
      ready := none
      consumer := .release message
      received := state.received ++ itemOf message }
  | .release message => some { state with slot := state.slot + 1, consumer := handle message }
  | .holding _ => none
  | .stopping outcome => some { state with stop := true, consumer := .joining outcome }
  | .joining outcome =>
      match state.pump with
      | .exited => some { state with consumer := .ended outcome }
      | _ => none
  | .ended _ => none

/-- The join expires only while the producer does not return. -/
def joinTimeout (state : Prefetch Item Error) : Option (Prefetch Item Error) :=
  match state.consumer, state.pump with
  | .joining _, .advance => some { state with consumer := .ended .stuck }
  | .joining _, .close _ => some { state with consumer := .ended .stuck }
  | _, _ => none

/-- The user asks for the next item, or closes the generator. -/
def userStep (state : Prefetch Item Error) (close : Bool) : Option (Prefetch Item Error) :=
  match state.consumer with
  | .holding _ => some { state with consumer := if close then .stopping .closed else .get, quit := close }
  | _ => none

def step (state : Prefetch Item Error) : PrefetchAction → Option (Prefetch Item Error)
  | .pump => pumpStep producer state
  | .pumpTimeout => pumpTimeout state
  | .consumer => consumerStep state
  | .joinTimeout => joinTimeout state
  | .resume => userStep state false
  | .close => userStep state true

/-! ### What the threads keep -/

/-- What ends the loop of the pump when the producer has no item. -/
def endOf (answer : Next Item Error) : Option (Message Item Error) :=
  match answer with
  | .item _ => none
  | .stop => some .done
  | .raise error => some (.error error)

/-- The message is what `close` makes of the end of the producer after so many items. -/
def Final (count : Nat) (message : Message Item Error) : Prop :=
  ∃ terminal, endOf (producer.next count) = some terminal ∧ message = closedWith producer terminal

/-- A generator that ran to its end shows the end of the producer. -/
def Shows (count : Nat) : Outcome Error → Prop
  | .exhausted => Final producer count .done
  | .raised error => Final producer count (.error error)
  | .closed => False
  | .stuck => False

def isTerminal : Message Item Error → Bool
  | .tensor _ => false
  | .done => true
  | .error _ => true

/-- The pump may still ask for items. -/
def looping : PumpPoint Item Error → Bool
  | .check => true
  | .acquire => true
  | .recheck => true
  | .advance => true
  | .put message => !isTerminal message
  | .offer message => !isTerminal message
  | .close _ => false
  | .exited => false

/-- The items that the pump has not put into the queue. -/
def atPump : PumpPoint Item Error → List Item
  | .put message => itemOf message
  | .offer message => itemOf message
  | _ => []

def inQueue : Option (Message Item Error) → List Item
  | some message => itemOf message
  | none => []

/-- The pump has a permit for an item that it may ask for. -/
def mayAdvance : PumpPoint Item Error → Nat
  | .recheck => 1
  | .advance => 1
  | _ => 0

/-- The pump has a permit for its terminal message. -/
def mayEnd : PumpPoint Item Error → Nat
  | .put message => if isTerminal message then 1 else 0
  | .offer message => if isTerminal message then 1 else 0
  | .close _ => 1
  | _ => 0

def queuePermit : Option (Message Item Error) → Nat
  | some message => if isTerminal message then 1 else 0
  | none => 0

def unreleased : ConsumerPoint Item Error → Nat
  | .release _ => 1
  | _ => 0

/-- The generator has its terminal message, or was closed. -/
def ending : ConsumerPoint Item Error → Bool
  | .get => false
  | .release message => isTerminal message
  | .holding _ => false
  | .stopping _ => true
  | .joining _ => true
  | .ended _ => true

/-- The loop of the generator is over. -/
def leaving : ConsumerPoint Item Error → Option (Outcome Error)
  | .stopping outcome => some outcome
  | .joining outcome => some outcome
  | .ended outcome => some outcome
  | _ => none

def stopped : ConsumerPoint Item Error → Bool
  | .joining _ => true
  | .ended _ => true
  | _ => false

/-- The producer is not closed yet. -/
def closeDue : PumpPoint Item Error → Nat
  | .put message => if isTerminal message then 0 else 1
  | .offer message => if isTerminal message then 0 else 1
  | .exited => 0
  | _ => 1

/-- What the pump will put as its terminal message. -/
def PumpEnds (count : Nat) : PumpPoint Item Error → Prop
  | .put message => isTerminal message = true → Final producer count message
  | .offer message => isTerminal message = true → Final producer count message
  | .close terminal => endOf (producer.next count) = some terminal
  | _ => True

def QueueEnds (count : Nat) : Option (Message Item Error) → Prop
  | some message => isTerminal message = true → Final producer count message
  | none => True

/-- What holds of the two threads in a run. -/
structure Kept (state : Prefetch Item Error) : Prop where
  made : ∀ place value, state.produced[place]? = some value → producer.next place = .item value
  asked : looping state.pump = true → state.advances = state.produced.length
  got : state.received <+: state.produced
  whole : state.stop = false → state.produced = state.received ++ (inQueue state.ready ++ atPump state.pump)
  permits : state.stop = false → state.produced.length + state.slot + mayAdvance state.pump + mayEnd state.pump +
    queuePermit state.ready + unreleased state.consumer = state.received.length + 1
  bounded : state.produced.length + state.slot + mayAdvance state.pump ≤ state.received.length + 1
  pumpEnds : state.stop = false → PumpEnds producer state.produced.length state.pump
  queueEnds : state.stop = false → QueueEnds producer state.produced.length state.ready
  handed : ∀ message, state.consumer = .release message → isTerminal message = true →
    Final producer state.received.length message
  shows : ∀ outcome, leaving state.consumer = some outcome → state.quit = false →
    Shows producer state.received.length outcome
  waits : state.pump = .exited → state.stop = false → queuePermit state.ready = 1 ∨ ending state.consumer = true
  joined : ending state.consumer = true → state.quit = false → state.pump = .exited
  last : queuePermit state.ready = 1 → state.pump = .exited
  flag : state.stop = stopped state.consumer
  closing : state.closes + closeDue state.pump = 1
  terminal : ∀ message, state.pump = .close message → isTerminal message = true
  seen : state.observed = true → state.stop = true ∧ (looping state.pump = true → state.pump = .check)

end Prefetch

end DgxSpark.Nvme
