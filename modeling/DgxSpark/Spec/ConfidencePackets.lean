import DgxSpark.Spec.ConfidenceTrace

/-
This file shows that along every sequence of calls each packet pairs the last accepted proposal with the capture
that follows it.
-/

namespace DgxSpark.ConfidenceTrace

variable {R F S : Type}

def Call.isAdd : Call R F S → Bool
  | .add _ => true
  | _ => false

def Call.Ends (rid : R) : Call R F S → Prop
  | .add data => data.reqId = rid
  | .remove other => other = rid
  | _ => False

def adds (calls : List (Call R F S)) : Nat := calls.countP Call.isAdd

/-- An incarnation is an `add` of the request, numbered among all of them, that no later call has ended. -/
def Incarnation (calls : List (Call R F S)) (rid : R) (epoch : Nat) : Prop :=
  ∃ early data late, calls = early ++ .add data :: late ∧ data.reqId = rid ∧ epoch = adds early + 1 ∧
    ∀ call ∈ late, ¬call.Ends rid

theorem adds_concat (calls : List (Call R F S)) (call : Call R F S) :
    adds (calls ++ [call]) = adds calls + call.isAdd.toNat := by
  rw [adds, List.countP_append, List.countP_singleton]
  cases call.isAdd <;> rfl

theorem incarnation_concat {calls : List (Call R F S)} {call : Call R F S} {rid : R} {epoch : Nat} :
    Incarnation (calls ++ [call]) rid epoch ↔
      (∃ data, call = .add data ∧ data.reqId = rid ∧ epoch = adds calls + 1) ∨
        (Incarnation calls rid epoch ∧ ¬call.Ends rid) := by
  constructor
  · rintro ⟨early, data, late, split, same, number, kept⟩
    rcases List.eq_nil_or_concat late with rfl | ⟨late, last, rfl⟩
    · obtain ⟨rfl, atEnd⟩ := List.append_inj' split rfl
      exact .inl ⟨data, List.singleton_inj.mp atEnd, same, number⟩
    · rw [List.concat_eq_append] at split kept
      have regrouped : calls ++ [call] = (early ++ .add data :: late) ++ [last] := by
        rw [split, List.append_assoc, List.cons_append]
      obtain ⟨rfl, atEnd⟩ := List.append_inj' regrouped rfl
      cases List.singleton_inj.mp atEnd
      refine .inr ⟨⟨early, data, late, rfl, same, number, fun other inside => ?_⟩, ?_⟩
      · exact kept other (List.mem_append_left _ inside)
      · exact kept call (List.mem_append_right _ (List.mem_singleton_self call))
  · rintro (⟨data, rfl, same, number⟩ | ⟨⟨early, data, late, rfl, same, number, kept⟩, outlives⟩)
    · exact ⟨calls, data, [], rfl, same, number, fun _ inside => absurd inside List.not_mem_nil⟩
    · refine ⟨early, data, late ++ [call], by simp, same, number, ?_⟩
      intro other inside
      rcases List.mem_append.mp inside with before | last
      · exact kept other before
      · exact List.mem_singleton.mp last ▸ outlives

variable [DecidableEq R]

namespace ConfidenceCollector

def epochOf (collector : ConfidenceCollector R) (rid : R) : Option Nat :=
  (collector.requests.get? rid).map Tracked.epoch

theorem get?_single {requests : OrderedDict R Tracked} {rid : R} {state : Tracked}
    (single : requests.entries = [(rid, state)]) {other : R} {found : Tracked} :
    requests.get? other = some found ↔ other = rid ∧ found = state := by
  rw [OrderedDict.get?_eq_some_iff, single, List.mem_singleton, Prod.mk.injEq]

/-- The owner is the only tracked request, and its budget is not used up. -/
theorem owner_some {collector : ConfidenceCollector R} {batch : InputBatch R} {rid : R} {state : Tracked}
    (owned : collector.owner batch = some (rid, state)) :
    collector.requests.entries = [(rid, state)] ∧ state.captured < packetLimit := by
  unfold owner at owned
  split at owned
  case isFalse => cases owned
  case isTrue one =>
    obtain ⟨head, _, found⟩ := Option.bind_eq_some_iff.mp owned
    obtain ⟨value, known, kept⟩ := Option.bind_eq_some_iff.mp found
    split at kept
    case isTrue => cases kept
    case isFalse passed =>
      cases kept
      have inside := OrderedDict.mem_of_get? known
      obtain ⟨entry, single⟩ := List.length_eq_one_iff.mp one.1
      rw [single, List.mem_singleton] at inside
      simp only [Bool.or_eq_true, decide_eq_true_eq, not_or, Nat.not_le] at passed
      exact ⟨inside ▸ single, passed.1.1.1.1.2⟩

/-- Rewriting the one tracked state keeps it the only one. -/
theorem get?_set_single {requests : OrderedDict R Tracked} {rid : R} {state : Tracked}
    (single : requests.entries = [(rid, state)]) {value : Tracked} {other : R} {found : Tracked} :
    (requests.set rid value).get? other = some found ↔ other = rid ∧ found = value := by
  by_cases same : other = rid
  · subst same
    rw [OrderedDict.get?_set_self, Option.some.injEq]
    exact ⟨fun equal => ⟨rfl, equal.symm⟩, fun both => both.2.symm⟩
  · rw [OrderedDict.get?_set_of_ne _ _ same, get?_single single]
    exact ⟨fun both => absurd both.1 same, fun both => absurd both.1 same⟩

/-- The collector that a call leaves which takes no ownership. -/
def dropped (collector : ConfidenceCollector R) : ConfidenceCollector R :=
  { collector with workerStep := collector.workerStep + 1, previous := none }

/-- A capture that gives a packet verifies the remembered proposal of the only tracked request. -/
structure Captures (collector : ConfidenceCollector R) (batch : InputBatch R) (speculator : Speculator S)
    (state : Tracked) (previous : Proposal R) (packet : Packet R S) : Prop where
  owned : collector.owner batch = some (packet.request, state)
  remembered : collector.previous = some previous
  request : previous.request = packet.request
  epoch : previous.epoch = state.epoch
  workerStep : previous.workerStep = collector.workerStep
  cloned : speculator.clone batch = some packet.tensors
  info : packet.info = {
    version := packetVersion
    epoch := state.epoch
    proposalId := previous.proposalId
    proposalWorkerStep := previous.workerStep
    verifiedWorkerStep := collector.workerStep + 1
    proposalAgeSteps := 1
    verifiedK := batch.numDraftTokens }

theorem capture_cases (collector : ConfidenceCollector R) (batch : InputBatch R) (speculator : Speculator S) :
    collector.capture batch speculator = (collector.dropped, none) ∨
      ∃ state previous packet, collector.Captures batch speculator state previous packet ∧
        collector.capture batch speculator =
          ({ collector with
              workerStep := collector.workerStep + 1
              requests := collector.requests.set packet.request { state with captured := state.captured + 1 } },
            some packet) := by
  have sameOwner : ({ collector with workerStep := collector.workerStep + 1 } : ConfidenceCollector R).owner batch =
    collector.owner batch := rfl
  simp only [capture, sameOwner, Nat.add_sub_cancel]
  split
  case h_2 => exact .inl rfl
  case h_1 rid state previous owned remembered =>
    split
    case isTrue => exact .inl rfl
    case isFalse paired =>
      simp only [ne_eq, not_or, not_not] at paired
      split
      case h_1 => exact .inl rfl
      case h_2 tensors cloned =>
        have age : collector.workerStep + 1 - previous.workerStep = 1 := by
          rw [paired.2.2]
          exact Nat.add_sub_cancel_left ..
        rw [age]
        refine .inr ⟨state, previous, ⟨rid, _, tensors⟩, ?_, rfl⟩
        exact ⟨owned, remembered, paired.1, paired.2.1, paired.2.2, cloned, rfl⟩

theorem proposed_cases (collector : ConfidenceCollector R) (batch : InputBatch R) :
    collector.proposed batch = { collector with previous := none } ∨
      ∃ rid state, collector.owner batch = some (rid, state) ∧
        collector.proposed batch =
          { collector with
            requests := collector.requests.set rid { state with serial := state.serial + 1 }
            previous := some ⟨rid, state.epoch, state.serial + 1, collector.workerStep⟩ } := by
  unfold proposed
  split
  case h_1 => exact .inl rfl
  case h_2 rid state owned => exact .inr ⟨rid, state, owned, rfl⟩

theorem epochOf_set_single {collector : ConfidenceCollector R} {rid : R} {state value : Tracked}
    (single : collector.requests.entries = [(rid, state)]) (same : value.epoch = state.epoch) (other : R) :
    ((collector.requests.set rid value).get? other).map Tracked.epoch = collector.epochOf other := by
  apply Option.ext
  intro epoch
  simp only [epochOf, Option.map_eq_some_iff, get?_single single, get?_set_single single]
  constructor
  · rintro ⟨found, ⟨here, rfl⟩, rfl⟩
    exact ⟨state, ⟨here, rfl⟩, same.symm⟩
  · rintro ⟨found, ⟨here, rfl⟩, rfl⟩
    exact ⟨value, ⟨here, rfl⟩, same⟩

end ConfidenceCollector

open ConfidenceCollector OrderedDict
open Adaptive (PyFloat)

/-- The tracked requests are those with a current incarnation, under its number. -/
structure Tracks (calls : List (Call R F S)) (collector : ConfidenceCollector R) : Prop where
  counted : collector.incarnation = adds calls
  current : ∀ rid epoch, Incarnation calls rid epoch ↔ collector.epochOf rid = some epoch

theorem tracks_init : Tracks ([] : List (Call R F S)) init where
  counted := rfl
  current rid epoch := by
    constructor
    · rintro ⟨early, data, late, split, _⟩
      exact absurd split (by simp)
    · intro impossible
      cases impossible

theorem Tracks.kept {calls : List (Call R F S)} {collector next : ConfidenceCollector R} {call : Call R F S}
    (tracks : Tracks calls collector) (neutral : ∀ rid, ¬call.Ends rid) (quiet : call.isAdd = false)
    (counted : next.incarnation = collector.incarnation) (epochs : ∀ rid, next.epochOf rid = collector.epochOf rid) :
    Tracks (calls ++ [call]) next where
  counted := by
    rw [adds_concat, quiet, counted, tracks.counted]
    rfl
  current rid epoch := by
    rw [incarnation_concat, epochs, ← tracks.current]
    constructor
    · rintro (⟨data, rfl, _⟩ | ⟨current, _⟩)
      · cases quiet
      · exact current
    · intro current
      exact .inr ⟨current, neutral rid⟩

section Ledger

def captures (packets : List (Packet R S)) (epoch : Nat) : Nat := packets.countP (·.info.epoch == epoch)

/-- What the collector remembers about the packets it gave. -/
structure Ledger (collector : ConfidenceCollector R) (packets : List (Packet R S)) : Prop where
  old : ∀ packet ∈ packets, packet.info.epoch ≤ collector.incarnation
  counted : ∀ rid state, collector.requests.get? rid = some state → captures packets state.epoch = state.captured
  numbered : ∀ rid state, collector.requests.get? rid = some state → ∀ packet ∈ packets,
    packet.info.epoch = state.epoch → packet.info.proposalId ≤ state.serial
  known : ∀ rid state, collector.requests.get? rid = some state → state.epoch ≤ collector.incarnation
  limited : ∀ epoch, captures packets epoch ≤ packetLimit
  increasing : packets.Pairwise fun earlier later =>
    earlier.info.epoch = later.info.epoch → earlier.info.proposalId < later.info.proposalId
  serial : ∀ previous, collector.previous = some previous → ∀ state,
    collector.requests.get? previous.request = some state → previous.epoch = state.epoch →
      previous.proposalId = state.serial
  waiting : ∀ previous, collector.previous = some previous → previous.workerStep = collector.workerStep →
    ∀ packet ∈ packets, packet.info.epoch = previous.epoch → packet.info.proposalId < previous.proposalId

omit [DecidableEq R] in
theorem captures_concat (packets : List (Packet R S)) (packet : Packet R S) (epoch : Nat) :
    captures (packets ++ [packet]) epoch = captures packets epoch + (packet.info.epoch == epoch).toNat := by
  rw [captures, List.countP_append, List.countP_singleton]
  cases packet.info.epoch == epoch <;> rfl

theorem ledger_init : Ledger (init : ConfidenceCollector R) ([] : List (Packet R S)) where
  old := by simp
  counted rid state found := by cases found
  numbered rid state found := by cases found
  known rid state found := by cases found
  limited epoch := Nat.zero_le _
  increasing := .nil
  serial previous remembered := by cases remembered
  waiting previous remembered := by cases remembered

variable {collector : ConfidenceCollector R} {packets : List (Packet R S)}

/-- Forgetting the proposal or some requests keeps the ledger. -/
theorem Ledger.forget {next : ConfidenceCollector R} (ledger : Ledger collector packets)
    (same : next.incarnation = collector.incarnation) (fewer : ∀ rid state, next.requests.get? rid = some state →
      collector.requests.get? rid = some state)
    (less : ∀ previous, next.previous = some previous →
      collector.previous = some previous ∧ next.workerStep = collector.workerStep) : Ledger next packets where
  old packet inside := same ▸ ledger.old packet inside
  counted rid state found := ledger.counted rid state (fewer rid state found)
  numbered rid state found := ledger.numbered rid state (fewer rid state found)
  known rid state found := same ▸ ledger.known rid state (fewer rid state found)
  limited := ledger.limited
  increasing := ledger.increasing
  serial previous remembered state found :=
    ledger.serial previous (less previous remembered).1 state (fewer _ state found)
  waiting previous remembered now :=
    ledger.waiting previous (less previous remembered).1 (now.trans (less previous remembered).2)

theorem add_get?_cases [PyFloat F] {data : NewRequestData R F} {rid : R} {state : Tracked}
    (found : (collector.add data).requests.get? rid = some state) :
    (state.epoch = collector.incarnation + 1 ∧ state.captured = 0) ∨ collector.requests.get? rid = some state := by
  rcases get?_set_cases found with ⟨_, rfl⟩ | ⟨other, older⟩
  · exact .inl ⟨rfl, rfl⟩
  · exact .inr ((get?_erase_of_ne _ other).symm.trans older)

theorem remove_get? {gone rid : R} {state : Tracked}
    (found : (collector.remove gone).requests.get? rid = some state) : collector.requests.get? rid = some state := by
  rw [ConfidenceCollector.remove, get?_erase] at found
  split at found
  · cases found
  · exact found

/-- A new incarnation has no packets yet. -/
theorem Ledger.add [PyFloat F] (ledger : Ledger collector packets) (data : NewRequestData R F) :
    Ledger (collector.add data) packets := by
  refine ⟨?_, ?_, ?_, ?_, ledger.limited, ledger.increasing, ?_, ?_⟩
  · intro packet inside
    exact Nat.le_succ_of_le (ledger.old packet inside)
  · intro rid state found
    rcases add_get?_cases found with ⟨fresh, none⟩ | older
    · rw [fresh, none, captures, List.countP_eq_zero]
      intro packet inside
      have before := ledger.old packet inside
      simp only [beq_iff_eq]
      omega
    · exact ledger.counted rid state older
  · intro rid state found packet inside same
    rcases add_get?_cases found with ⟨fresh, _⟩ | older
    · have before := ledger.old packet inside
      omega
    · exact ledger.numbered rid state older packet inside same
  · intro rid state found
    rcases add_get?_cases found with ⟨fresh, _⟩ | older
    · exact fresh.le
    · exact Nat.le_succ_of_le (ledger.known rid state older)
  · intro previous remembered
    cases remembered
  · intro previous remembered
    cases remembered

/-- The packet takes the remembered number, which every packet of the incarnation is below. -/
theorem Ledger.capture {batch : InputBatch R} {speculator : Speculator S} {state : Tracked} {previous : Proposal R}
    {packet : Packet R S} (ledger : Ledger collector packets)
    (captured : collector.Captures batch speculator state previous packet) :
    Ledger { collector with
      workerStep := collector.workerStep + 1
      requests := collector.requests.set packet.request { state with captured := state.captured + 1 } }
      (packets ++ [packet]) := by
  obtain ⟨single, room⟩ := owner_some captured.owned
  have found : collector.requests.get? packet.request = some state := (get?_single single).mpr ⟨rfl, rfl⟩
  have epoch : packet.info.epoch = state.epoch := by rw [captured.info]
  have number : packet.info.proposalId = previous.proposalId := by rw [captured.info]
  have serial : previous.proposalId = state.serial :=
    ledger.serial previous captured.remembered state (captured.request ▸ found) captured.epoch
  have count := ledger.counted packet.request state found
  refine ⟨?_, ?_, ?_, ?_, ?_, ?_, ?_, ?_⟩
  · intro other inside
    rcases List.mem_append.mp inside with before | last
    · exact ledger.old other before
    · rw [List.mem_singleton.mp last, epoch]
      exact ledger.known packet.request state found
  · intro rid value known
    obtain ⟨_, rfl⟩ := (get?_set_single single).mp known
    rw [captures_concat, epoch, beq_self_eq_true, count]
    rfl
  · intro rid value known other inside same
    obtain ⟨_, rfl⟩ := (get?_set_single single).mp known
    rcases List.mem_append.mp inside with before | last
    · exact ledger.numbered packet.request state found other before same
    · rw [List.mem_singleton.mp last, number, serial]
  · intro rid value known
    obtain ⟨_, rfl⟩ := (get?_set_single single).mp known
    exact ledger.known packet.request state found
  · intro other
    rw [captures_concat]
    by_cases same : packet.info.epoch = other
    · rw [← same, epoch, count, beq_self_eq_true]
      exact room
    · rw [beq_false_of_ne same]
      exact ledger.limited other
  · rw [List.pairwise_append]
    refine ⟨ledger.increasing, List.pairwise_singleton _ _, ?_⟩
    intro earlier before later last same
    rw [List.mem_singleton.mp last] at same ⊢
    rw [number]
    exact ledger.waiting previous captured.remembered captured.workerStep earlier before
      (same.trans (epoch.trans captured.epoch.symm))
  · intro other remembered value known _
    obtain ⟨_, rfl⟩ := (get?_set_single single).mp known
    have alike : other = previous := Option.some.inj (remembered.symm.trans captured.remembered)
    rw [alike, serial]
  · intro other remembered now
    have alike : other = previous := Option.some.inj (remembered.symm.trans captured.remembered)
    have late : other.workerStep = collector.workerStep + 1 := now
    rw [alike, captured.workerStep] at late
    exact absurd late (Nat.ne_of_lt (Nat.lt_succ_self _))

theorem Ledger.propose {batch : InputBatch R} {rid : R} {state : Tracked} (ledger : Ledger collector packets)
    (owned : collector.owner batch = some (rid, state)) :
    Ledger { collector with
      requests := collector.requests.set rid { state with serial := state.serial + 1 }
      previous := some ⟨rid, state.epoch, state.serial + 1, collector.workerStep⟩ } packets := by
  obtain ⟨single, _⟩ := owner_some owned
  have found : collector.requests.get? rid = some state := (get?_single single).mpr ⟨rfl, rfl⟩
  have below : ∀ packet ∈ packets, packet.info.epoch = state.epoch → packet.info.proposalId < state.serial + 1 :=
    fun packet inside same => Nat.lt_succ_of_le (ledger.numbered rid state found packet inside same)
  refine ⟨ledger.old, ?_, ?_, ?_, ledger.limited, ledger.increasing, ?_, ?_⟩
  · intro other value known
    obtain ⟨_, rfl⟩ := (get?_set_single single).mp known
    exact ledger.counted rid state found
  · intro other value known packet inside same
    obtain ⟨_, rfl⟩ := (get?_set_single single).mp known
    exact (below packet inside same).le
  · intro other value known
    obtain ⟨_, rfl⟩ := (get?_set_single single).mp known
    exact ledger.known rid state found
  · intro previous remembered value known _
    obtain ⟨_, rfl⟩ := (get?_set_single single).mp known
    cases remembered
    rfl
  · intro previous remembered _
    cases remembered
    exact below

/-- The step lemma of the ledger. -/
theorem Ledger.step [PyFloat F] (ledger : Ledger collector packets) (call : Call R F S) :
    Ledger (collector.step call).1 (packets ++ (collector.step call).2.toList) := by
  cases call with
  | add data =>
      show Ledger (collector.add data) (packets ++ [])
      rw [List.append_nil]
      exact ledger.add data
  | remove gone =>
      show Ledger (collector.remove gone) (packets ++ [])
      rw [List.append_nil]
      refine ledger.forget rfl (fun _ _ found => remove_get? found) ?_
      · intro previous remembered
        exact ⟨(Option.filter_eq_some_iff.mp remembered).1, rfl⟩
  | capture batch speculator =>
      show Ledger (collector.capture batch speculator).1 (packets ++ (collector.capture batch speculator).2.toList)
      rcases collector.capture_cases batch speculator with same | ⟨state, previous, packet, captured, same⟩
      · rw [same]
        show Ledger collector.dropped (packets ++ [])
        rw [List.append_nil]
        refine ledger.forget rfl (fun _ _ found => found) ?_
        intro previous remembered
        cases remembered
      · rw [same]
        exact ledger.capture captured
  | proposed batch =>
      show Ledger (collector.proposed batch) (packets ++ [])
      rw [List.append_nil]
      rcases collector.proposed_cases batch with same | ⟨rid, state, owned, same⟩
      · rw [same]
        refine ledger.forget rfl (fun _ _ found => found) ?_
        intro previous remembered
        cases remembered
      · rw [same]
        exact ledger.propose owned

/-- No tracked state of the incarnation is below the number. -/
structure Used (collector : ConfidenceCollector R) (epoch number : Nat) : Prop where
  old : epoch ≤ collector.incarnation
  below : ∀ rid state, collector.requests.get? rid = some state → state.epoch = epoch → number ≤ state.serial

/-- The step lemma of the numbers in use. -/
theorem Used.step [PyFloat F] {epoch number : Nat} (used : Used collector epoch number) (call : Call R F S) :
    Used (collector.step call).1 epoch number := by
  cases call with
  | add data =>
      refine ⟨Nat.le_succ_of_le used.old, fun rid state found same => ?_⟩
      rcases add_get?_cases found with ⟨fresh, _⟩ | older
      · have before := used.old
        omega
      · exact used.below rid state older same
  | remove gone => exact ⟨used.old, fun rid state found => used.below rid state (remove_get? found)⟩
  | capture batch speculator =>
      show Used (collector.capture batch speculator).1 epoch number
      rcases collector.capture_cases batch speculator with same | ⟨state, previous, packet, captured, same⟩
      · rw [same]
        exact ⟨used.old, used.below⟩
      · have single := (owner_some captured.owned).1
        rw [same]
        refine ⟨used.old, fun rid value found => ?_⟩
        obtain ⟨_, rfl⟩ := (get?_set_single single).mp found
        exact used.below packet.request state ((get?_single single).mpr ⟨rfl, rfl⟩)
  | proposed batch =>
      show Used (collector.proposed batch) epoch number
      rcases collector.proposed_cases batch with same | ⟨rid, state, owned, same⟩
      · rw [same]
        exact ⟨used.old, used.below⟩
      · have single := (owner_some owned).1
        rw [same]
        refine ⟨used.old, fun other value found alike => ?_⟩
        obtain ⟨_, rfl⟩ := (get?_set_single single).mp found
        exact Nat.le_succ_of_le (used.below rid state ((get?_single single).mpr ⟨rfl, rfl⟩) alike)

theorem Ledger.used (ledger : Ledger collector packets) {batch : InputBatch R} {previous : Proposal R}
    (recorded : (collector.proposed batch).previous = some previous) :
    Used (collector.proposed batch) previous.epoch previous.proposalId := by
  rcases collector.proposed_cases batch with same | ⟨rid, state, owned, same⟩
  · rw [same] at recorded
    cases recorded
  · have single := (owner_some owned).1
    rw [same] at recorded ⊢
    cases recorded
    refine ⟨ledger.known rid state ((get?_single single).mpr ⟨rfl, rfl⟩), fun other value found _ => ?_⟩
    obtain ⟨_, rfl⟩ := (get?_set_single single).mp found
    exact le_rfl

theorem proposed_some {batch : InputBatch R} {previous : Proposal R}
    (recorded : (collector.proposed batch).previous = some previous) :
    ∃ rid state, collector.owner batch = some (rid, state) ∧ previous.epoch = state.epoch ∧
      previous.proposalId = state.serial + 1 := by
  rcases collector.proposed_cases batch with same | ⟨rid, state, owned, same⟩
  · rw [same] at recorded
    cases recorded
  · rw [same] at recorded
    cases recorded
    exact ⟨rid, state, owned, rfl, rfl⟩

end Ledger

variable [PyFloat F]

/-- The collector after the calls, and the packets that the calls gave. -/
def run (calls : List (Call R F S)) : ConfidenceCollector R × List (Packet R S) :=
  calls.foldl (fun reached call =>
    let next := reached.1.step call
    (next.1, reached.2 ++ next.2.toList)) (init, [])

theorem run_concat (calls : List (Call R F S)) (call : Call R F S) :
    run (calls ++ [call]) = (((run calls).1.step call).1, (run calls).2 ++ ((run calls).1.step call).2.toList) := by
  rw [run, List.foldl_append]
  rfl

theorem add_epochOf (collector : ConfidenceCollector R) (data : NewRequestData R F) (other : R) :
    (collector.add data).epochOf other =
      if other = data.reqId then some (collector.incarnation + 1) else collector.epochOf other := by
  by_cases same : other = data.reqId
  · subst same
    simp [add, epochOf, remove]
  · simp [add, epochOf, remove, same, get?_set_of_ne, get?_erase_of_ne]

theorem remove_epochOf (collector : ConfidenceCollector R) (rid other : R) :
    (collector.remove rid).epochOf other = if other = rid then none else collector.epochOf other := by
  rw [epochOf, remove, get?_erase]
  split <;> rfl

/-- The step lemma of the incarnations. -/
theorem Tracks.step {calls : List (Call R F S)} {collector : ConfidenceCollector R}
    (tracks : Tracks calls collector) (call : Call R F S) : Tracks (calls ++ [call]) (collector.step call).1 := by
  cases call with
  | add data =>
      refine ⟨?_, fun rid epoch => ?_⟩
      · rw [adds_concat, ← tracks.counted]
        rfl
      · show _ ↔ (collector.add data).epochOf rid = some epoch
        rw [incarnation_concat, add_epochOf, tracks.counted]
        by_cases same : rid = data.reqId
        · subst same
          simp [Call.Ends, eq_comm]
        · have other : data.reqId ≠ rid := fun equal => same equal.symm
          simp [Call.Ends, same, other, tracks.current]
  | remove gone =>
      refine ⟨?_, fun rid epoch => ?_⟩
      · rw [adds_concat, ← tracks.counted]
        rfl
      · show _ ↔ (collector.remove gone).epochOf rid = some epoch
        rw [incarnation_concat, remove_epochOf]
        by_cases same : rid = gone
        · simp [Call.Ends, same]
        · have other : gone ≠ rid := fun equal => same equal.symm
          simp [Call.Ends, same, other, tracks.current]
  | capture batch speculator =>
      show Tracks _ (collector.capture batch speculator).1
      rcases collector.capture_cases batch speculator with same | ⟨state, previous, packet, captures, same⟩
      · rw [same]
        exact tracks.kept (fun _ ends => ends) rfl rfl fun _ => rfl
      · rw [same]
        exact tracks.kept (fun _ ends => ends) rfl rfl (epochOf_set_single (owner_some captures.owned).1 rfl)
  | proposed batch =>
      show Tracks _ (collector.proposed batch)
      rcases collector.proposed_cases batch with same | ⟨rid, state, owned, same⟩
      · rw [same]
        exact tracks.kept (fun _ ends => ends) rfl rfl fun _ => rfl
      · rw [same]
        exact tracks.kept (fun _ ends => ends) rfl rfl (epochOf_set_single (owner_some owned).1 rfl)

/-- The call of `proposed` after these calls takes the request's current incarnation, and no other request is
tracked. -/
structure Accepts (calls : List (Call R F S)) (batch : InputBatch R) (rid : R) (epoch : Nat) : Prop where
  owned : ∃ state, (run calls).1.owner batch = some (rid, state)
  current : Incarnation calls rid epoch
  only : ∀ other number, Incarnation calls other number → other = rid

/-- The last call of `proposed` accepted the incarnation, and only removals of other requests follow it. -/
def Pending (calls : List (Call R F S)) (rid : R) (epoch : Nat) : Prop :=
  ∃ early batch late, calls = early ++ .proposed batch :: late ∧ Accepts early batch rid epoch ∧
    ∀ call ∈ late, ∃ other, call = .remove other ∧ other ≠ rid

theorem Pending.remove {calls : List (Call R F S)} {rid gone : R} {epoch : Nat} (pending : Pending calls rid epoch)
    (other : gone ≠ rid) : Pending (calls ++ [.remove gone]) rid epoch := by
  obtain ⟨early, batch, late, rfl, accepts, removals⟩ := pending
  refine ⟨early, batch, late ++ [.remove gone], by simp, accepts, ?_⟩
  intro call inside
  rcases List.mem_append.mp inside with before | last
  · exact removals call before
  · exact ⟨gone, List.mem_singleton.mp last, other⟩

theorem accepts_of_owner {calls : List (Call R F S)} (tracks : Tracks calls (run calls).1) {batch : InputBatch R}
    {rid : R} {state : Tracked} (owned : (run calls).1.owner batch = some (rid, state)) :
    Accepts calls batch rid state.epoch := by
  have single := (owner_some owned).1
  refine ⟨⟨state, owned⟩, ?_, ?_⟩
  · rw [tracks.current, epochOf, (get?_single single).mpr ⟨rfl, rfl⟩, Option.map_some]
  · intro other number current
    obtain ⟨found, known, _⟩ := Option.map_eq_some_iff.mp ((tracks.current other number).mp current)
    exact ((get?_single single).mp known).1

/-- The invariant of a run: what the collector tracks, what it gave, and what its record stands for. -/
structure Sound (calls : List (Call R F S)) : Prop where
  tracks : Tracks calls (run calls).1
  ledger : Ledger (run calls).1 (run calls).2
  pending : ∀ previous, (run calls).1.previous = some previous →
    previous.workerStep = (run calls).1.workerStep → Pending calls previous.request previous.epoch

theorem pending_step {calls : List (Call R F S)} (sound : Sound calls) (call : Call R F S)
    {previous : Proposal R} (remembered : ((run calls).1.step call).1.previous = some previous)
    (now : previous.workerStep = ((run calls).1.step call).1.workerStep) :
    Pending (calls ++ [call]) previous.request previous.epoch := by
  cases call with
  | add data => cases remembered
  | remove gone =>
      obtain ⟨before, kept⟩ := Option.filter_eq_some_iff.mp remembered
      have other : previous.request ≠ gone := of_decide_eq_true kept
      exact (sound.pending previous before now).remove other.symm
  | capture batch speculator =>
      change ((run calls).1.capture batch speculator).1.previous = some previous at remembered
      change previous.workerStep = ((run calls).1.capture batch speculator).1.workerStep at now
      rcases (run calls).1.capture_cases batch speculator with same | ⟨state, older, packet, captured, same⟩
      · rw [same] at remembered
        cases remembered
      · -- The record that gave the packet is one step too old for the next capture.
        rw [same] at remembered now
        have alike : previous = older := Option.some.inj (remembered.symm.trans captured.remembered)
        rw [alike, captured.workerStep] at now
        exact absurd now (Nat.ne_of_lt (Nat.lt_succ_self _))
  | proposed batch =>
      change ((run calls).1.proposed batch).previous = some previous at remembered
      rcases (run calls).1.proposed_cases batch with same | ⟨rid, state, owned, same⟩
      · rw [same] at remembered
        cases remembered
      · rw [same] at remembered
        cases remembered
        refine ⟨calls, batch, [], rfl, accepts_of_owner sound.tracks owned, ?_⟩
        exact fun _ inside => absurd inside List.not_mem_nil

theorem run_sound (calls : List (Call R F S)) : Sound calls := by
  induction calls using List.reverseRecOn with
  | nil =>
      refine ⟨tracks_init, ledger_init, ?_⟩
      intro previous remembered
      cases remembered
  | append_singleton calls call ih =>
      refine ⟨?_, ?_, ?_⟩
      · rw [run_concat]
        exact ih.tracks.step call
      · rw [run_concat]
        exact ih.ledger.step call
      · rw [run_concat]
        exact fun previous remembered now => pending_step ih call remembered now

theorem proposed_used {calls : List (Call R F S)} {batch : InputBatch R} {previous : Proposal R}
    (recorded : ((run calls).1.proposed batch).previous = some previous) (more : List (Call R F S)) :
    Used (run (calls ++ .proposed batch :: more)).1 previous.epoch previous.proposalId := by
  induction more using List.reverseRecOn with
  | nil =>
      rw [run_concat]
      show Used ((run calls).1.proposed batch) previous.epoch previous.proposalId
      exact (run_sound calls).ledger.used recorded
  | append_singleton more call ih =>
      have regrouped : calls ++ .proposed batch :: (more ++ [call]) = (calls ++ .proposed batch :: more) ++ [call] := by
        simp
      rw [regrouped, run_concat]
      exact ih.step call

/-- Within an incarnation the numbers of the accepted proposals increase. -/
theorem proposals_increase {calls more : List (Call R F S)} {batch other : InputBatch R} {earlier later : Proposal R}
    (first : ((run calls).1.proposed batch).previous = some earlier)
    (second : ((run (calls ++ .proposed batch :: more)).1.proposed other).previous = some later)
    (same : earlier.epoch = later.epoch) : earlier.proposalId < later.proposalId := by
  obtain ⟨rid, state, owned, epoch, number⟩ := proposed_some second
  have found := (get?_single (owner_some owned).1).mpr ⟨rfl, rfl⟩
  rw [number]
  exact Nat.lt_succ_of_le ((proposed_used first more).below rid state found (epoch.symm.trans same.symm))

theorem capture_some {calls : List (Call R F S)} {batch : InputBatch R} {speculator : Speculator S}
    {packet : Packet R S} (given : ((run calls).1.capture batch speculator).2 = some packet) :
    ∃ state previous, (run calls).1.Captures batch speculator state previous packet := by
  rcases (run calls).1.capture_cases batch speculator with same | ⟨state, previous, other, captured, same⟩
  · rw [same] at given
    cases given
  · rw [same] at given
    cases given
    exact ⟨state, previous, captured⟩

/-- Each packet verifies the proposal that the last call of `proposed` made for the current incarnation of the only
tracked request, and no two packets verify the same proposal. -/
theorem packets_pair (calls : List (Call R F S)) :
    (∀ before batch speculator packet, before ++ [.capture batch speculator] <+: calls →
      ((run before).1.capture batch speculator).2 = some packet →
        Pending before packet.request packet.info.epoch ∧ Incarnation before packet.request packet.info.epoch ∧
          packet.info.proposalWorkerStep + 1 = packet.info.verifiedWorkerStep) ∧
    ((run calls).2.map fun packet => (packet.info.epoch, packet.info.proposalId)).Nodup ∧
    ((run calls).2.Pairwise fun earlier later =>
      earlier.info.epoch = later.info.epoch → earlier.info.proposalId < later.info.proposalId) ∧
    (∀ before batch (earlier : Proposal R) more other later,
      before ++ .proposed batch :: more ++ [.proposed other] <+: calls →
        ((run before).1.proposed batch).previous = some earlier →
        ((run (before ++ .proposed batch :: more)).1.proposed other).previous = some later →
          earlier.epoch = later.epoch → earlier.proposalId < later.proposalId) ∧
    ∀ epoch, captures (run calls).2 epoch ≤ packetLimit := by
  have increasing := (run_sound calls).ledger.increasing
  refine ⟨?_, ?_, increasing, ?_, (run_sound calls).ledger.limited⟩
  · intro before batch speculator packet _ given
    obtain ⟨state, previous, captured⟩ := capture_some given
    have epoch : packet.info.epoch = previous.epoch := by rw [captured.info, captured.epoch]
    have current := (accepts_of_owner (run_sound before).tracks captured.owned).current
    rw [epoch]
    refine ⟨captured.request ▸ (run_sound before).pending previous captured.remembered captured.workerStep, ?_, ?_⟩
    · rw [captured.epoch]
      exact current
    · rw [captured.info, captured.workerStep]
  · rw [List.Nodup, List.pairwise_map]
    refine increasing.imp ?_
    intro earlier later below same
    obtain ⟨epoch, number⟩ := Prod.mk.inj same
    exact absurd number (Nat.ne_of_lt (below epoch))
  · intro before batch earlier more other later _ first second same
    exact proposals_increase first second same

def steadyBatch : InputBatch Nat where
  numReqs := 1
  reqIds := [7]
  hasStructuredOutputReqs := false
  isPrefillingNp := [false]
  numDraftTokens := 1
  numTokens := 2
  positions := ⟨[2], .int64, fun _ => 0⟩
  inputIds := ⟨[2], .int32, fun _ => 0⟩
  rows := rfl

def draftedTokens : Speculator Nat where
  selectorScores := some ⟨[1, 7, 16], .float32, fun _ => 0⟩
  samplePos := some ⟨[7], .int64, fun _ => 0⟩
  draftTokens := some ⟨[1, 7], .int64, fun _ => 0⟩

/-- A request is removed and comes again under the same id before its proposal is verified. -/
def readmitted : List (Call Nat (Option ℚ) Nat) :=
  let request : NewRequestData Nat (Option ℚ) := ⟨7, some ⟨.int 0, none, empty⟩, empty⟩
  [.add request, .proposed steadyBatch, .remove 7, .add request, .proposed steadyBatch]

theorem packets_pair_readmitted :
    ∃ packet, ((run readmitted).1.capture steadyBatch draftedTokens).2 = some packet ∧
    packet.info.epoch = 2 ∧ Pending readmitted packet.request packet.info.epoch := by
  obtain ⟨packet, given, epoch⟩ : ∃ packet : Packet Nat Nat,
      ((run readmitted).1.capture steadyBatch draftedTokens).2 = some packet ∧ packet.info.epoch = 2 := ⟨_, rfl, rfl⟩
  have pairs := (packets_pair (readmitted ++ [.capture steadyBatch draftedTokens])).1
  exact ⟨packet, given, epoch, (pairs readmitted steadyBatch draftedTokens packet (List.prefix_refl _) given).1⟩

end DgxSpark.ConfidenceTrace
