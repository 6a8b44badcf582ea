import DgxSpark.Nvme.PlanBatches

/-
This file shows what `plan_batches` plans: it refuses exactly the defective checkpoints, and otherwise
its batches hold every nonempty tensor once, in the order of the file.
-/

namespace DgxSpark.Nvme

open Library

variable {DType : Type}

def Metadata.nonempty (metadata : Metadata DType) : List (Row DType) :=
  metadata.tensors.entries.filter fun row => row.2.bytes ≠ 0

/-- The range of a tensor lies within a file of the checkpoint. -/
def TensorInfo.Inside (info : TensorInfo DType) (stamps : OrderedDict String Stamp) : Prop :=
  ∃ stamp, stamps.get? info.file = some stamp ∧ 0 ≤ info.offset ∧ info.offset < info.stop ∧ info.stop ≤ stamp.size

def TensorInfo.Overlaps (first second : TensorInfo DType) : Prop :=
  first.file = second.file ∧ first.offset < second.stop ∧ second.offset < first.stop

/-- Some nonempty tensor is unaligned, outside its file, or on top of another one. -/
def Metadata.Defective (metadata : Metadata DType) (elementSize : DType → Nat) : Prop :=
  ∃ row ∈ metadata.nonempty, ¬(elementSize row.2.dtype : Int) ∣ row.2.offset ∨ ¬row.2.Inside metadata.stamps ∨
    ∃ other ∈ metadata.nonempty, other.1 ≠ row.1 ∧ row.2.Overlaps other.2

/-- The first tensor of a file ends before the second begins. -/
def Row.Before (first second : Row DType) : Prop := first.2.file = second.2.file → first.2.stop ≤ second.2.offset

structure Batch.Sound (batch : Batch DType) (batchBytes : Int) : Prop where
  filled : batch.tensors ≠ []
  aligned : (ALIGN : Int) ∣ batch.start
  first : ∀ row ∈ batch.tensors.head?, batch.start ≤ row.2.offset ∧ row.2.offset ≤ batch.start + 4095
  within : ∀ row ∈ batch.tensors, row.2.file = batch.file ∧ batch.start ≤ row.2.offset ∧
    row.2.offset < row.2.stop ∧ row.2.stop ≤ batch.stop
  last : ∀ row ∈ batch.tensors.getLast?, batch.stop = row.2.stop
  sized : batchBytes < batch.bytes → batch.tensors.length = 1

/-- The tensors of a plan are these, in this order. -/
structure Planned (stamps : OrderedDict String Stamp) (batchBytes : Int) (batches : List (Batch DType))
    (rows : List (Row DType)) : Prop where
  listed : batches.flatMap Batch.tensors = rows
  sound : ∀ batch ∈ batches, batch.Sound batchBytes
  inside : ∀ row ∈ rows, row.2.Inside stamps
  ordered : rows.Pairwise Row.Before

/-- The loop over the rows of a file, after the files before it and some of its rows. -/
structure Planning (stamps : OrderedDict String Stamp) (batchBytes : Int) (path : String) (plan : Plan DType)
    (rows : List (Row DType)) : Prop where
  listed : plan.batches.flatMap Batch.tensors ++ plan.current = rows
  sound : ∀ batch ∈ plan.batches, batch.Sound batchBytes
  filling : plan.current ≠ [] → (plan.pending path).Sound batchBytes
  inside : ∀ row ∈ rows, row.2.Inside stamps
  ordered : rows.Pairwise Row.Before
  behind : ∀ row ∈ rows, row.2.file = path → plan.current ≠ [] ∧ row.2.stop ≤ plan.stop

theorem flush_listed (plan : Plan DType) (path : String) (batchBytes : Int) (info : TensorInfo DType) :
    (plan.flush path batchBytes info).batches.flatMap Batch.tensors ++ (plan.flush path batchBytes info).current =
      plan.batches.flatMap Batch.tensors ++ plan.current := by
  unfold Plan.flush
  split
  · simp [Plan.pending]
  · rfl

/-- The first tensor of a batch makes a sound batch. -/
theorem take_first {plan : Plan DType} {path : String} {row : Row DType} (batchBytes : Int)
    (fresh : plan.current = []) (placed : row.2.file = path) (long : row.2.offset < row.2.stop) :
    ((plan.take row).pending path).Sound batchBytes where
  filled := by simp [Plan.pending, Plan.take, fresh]
  aligned := by
    simp only [Plan.pending, Plan.take, fresh, if_true]
    exact Int.dvd_mul_left _ _
  first := by
    simp only [Plan.pending, Plan.take, fresh, if_true, List.nil_append, List.head?_cons, Option.mem_some_iff,
      forall_eq', ALIGN]
    omega
  within := by
    simp only [Plan.pending, Plan.take, fresh, if_true, List.nil_append, List.mem_singleton, forall_eq]
    refine ⟨placed, ?_, long, le_rfl⟩
    simp only [ALIGN]
    omega
  last := by simp [Plan.pending, Plan.take, fresh, TensorInfo.stop]
  sized := fun _ => by simp [Plan.pending, Plan.take, fresh]

/-- A further tensor that fits keeps the batch sound. -/
theorem take_further {plan : Plan DType} {path : String} {row : Row DType} {batchBytes : Int}
    (sound : (plan.pending path).Sound batchBytes) (placed : row.2.file = path) (behind : plan.stop ≤ row.2.offset)
    (long : row.2.offset < row.2.stop) (fits : row.2.stop - plan.start ≤ batchBytes) :
    ((plan.take row).pending path).Sound batchBytes := by
  have filled : plan.current ≠ [] := sound.filled
  have kept : ((plan.take row).pending path).start = plan.start := if_neg filled
  have begun : plan.start ≤ plan.stop := by
    have within := sound.within (plan.current.getLast filled) (List.getLast_mem filled)
    simp only [Plan.pending] at within
    omega
  constructor
  · simp [Plan.pending, Plan.take]
  · rw [kept]
    exact sound.aligned
  · rw [kept]
    have same : ((plan.take row).pending path).tensors.head? = plan.current.head? := List.head?_append_of_ne_nil _ filled
    rw [same]
    exact sound.first
  · intro other inside
    rw [kept]
    rcases List.mem_append.mp inside with earlier | this
    · have within := sound.within other earlier
      refine ⟨within.1, within.2.1, within.2.2.1, ?_⟩
      exact within.2.2.2.trans (behind.trans long.le)
    · cases List.mem_singleton.mp this
      exact ⟨placed, begun.trans behind, long, le_rfl⟩
  · simp [Plan.pending, Plan.take, TensorInfo.stop]
  · intro large
    have bytes : ((plan.take row).pending path).bytes = row.2.stop - plan.start := by
      rw [Batch.bytes, kept]
      rfl
    omega

theorem planRow_ok {path : String} {size batchBytes : Int} {plan next : Plan DType} {row : Row DType}
    (planned : planRow path size batchBytes plan row = .ok next) :
    (0 ≤ row.2.offset ∧ row.2.offset < row.2.stop ∧ row.2.stop ≤ size) ∧
      (plan.current ≠ [] → plan.stop ≤ row.2.offset) ∧ next = (plan.flush path batchBytes row.2).take row := by
  unfold planRow at planned
  simp only at planned
  split at planned
  · cases planned
  case isFalse inside =>
    split at planned
    · cases planned
    case isFalse apart =>
      cases planned
      exact ⟨not_not.mp inside, fun filled => not_lt.mp fun low => apart ⟨filled, low⟩, rfl⟩

variable {stamps : OrderedDict String Stamp} {batchBytes : Int}

/-- Closing a batch keeps what is planned. -/
theorem Planning.flush {path : String} {plan : Plan DType} {rows : List (Row DType)}
    (planning : Planning stamps batchBytes path plan rows) (info : TensorInfo DType) :
    ∀ batch ∈ (plan.flush path batchBytes info).batches, batch.Sound batchBytes := by
  intro batch inside
  unfold Plan.flush at inside
  split at inside
  case isTrue full =>
    rcases List.mem_append.mp inside with earlier | closed
    · exact planning.sound batch earlier
    · cases List.mem_singleton.mp closed
      exact planning.filling full.1
  case isFalse => exact planning.sound batch inside

/-- The batch after a row is sound, whether the row opens it or joins it. -/
theorem Planning.filled {path : String} {plan : Plan DType} {rows : List (Row DType)} {row : Row DType}
    (planning : Planning stamps batchBytes path plan rows) (placed : row.2.file = path)
    (long : row.2.offset < row.2.stop) (behind : plan.current ≠ [] → plan.stop ≤ row.2.offset) :
    (((plan.flush path batchBytes row.2).take row).pending path).Sound batchBytes := by
  unfold Plan.flush
  split
  case isTrue => exact take_first batchBytes rfl placed long
  case isFalse fits =>
    by_cases fresh : plan.current = []
    · exact take_first batchBytes fresh placed long
    · simp only [ne_eq, fresh, not_false_eq_true, true_and, gt_iff_lt, not_lt] at fits
      exact take_further (planning.filling fresh) placed (behind fresh) long fits

/-- What one row adds to the plan. -/
theorem Planning.row {path : String} {stamp : Stamp} {plan next : Plan DType} {rows : List (Row DType)}
    {row : Row DType} (planning : Planning stamps batchBytes path plan rows)
    (known : stamps.get? path = some stamp) (placed : row.2.file = path)
    (planned : planRow path stamp.size batchBytes plan row = .ok next) :
    Planning stamps batchBytes path next (rows ++ [row]) := by
  obtain ⟨range, behind, rfl⟩ := planRow_ok planned
  have ahead : ∀ other ∈ rows, other.2.file = path → other.2.stop ≤ row.2.offset := by
    intro other inside same
    obtain ⟨filled, ends⟩ := planning.behind other inside same
    exact ends.trans (behind filled)
  constructor
  · rw [← planning.listed, ← flush_listed plan path batchBytes row.2, List.append_assoc]
    rfl
  · exact planning.flush row.2
  · exact fun _ => planning.filled placed range.2.1 behind
  · intro other inside
    rcases List.mem_append.mp inside with earlier | this
    · exact planning.inside other earlier
    · cases List.mem_singleton.mp this
      exact ⟨stamp, by rw [placed]; exact known, range⟩
  · rw [List.pairwise_append]
    refine ⟨planning.ordered, List.pairwise_singleton _ _, ?_⟩
    intro other inside last this same
    cases List.mem_singleton.mp this
    exact ahead other inside (same.trans placed)
  · intro other inside same
    refine ⟨by simp [Plan.take], ?_⟩
    rcases List.mem_append.mp inside with earlier | this
    · exact (ahead other earlier same).trans range.2.1.le
    · cases List.mem_singleton.mp this
      exact le_rfl

/-- A file begins with no batch to fill. -/
theorem Planned.begin {batches : List (Batch DType)} {rows : List (Row DType)} {path : String}
    (planned : Planned stamps batchBytes batches rows) (unseen : ∀ row ∈ rows, row.2.file ≠ path) :
    Planning stamps batchBytes path ⟨batches, [], 0, 0⟩ rows where
  listed := by
    rw [List.append_nil]
    exact planned.listed
  sound := planned.sound
  filling := fun filled => absurd rfl filled
  inside := planned.inside
  ordered := planned.ordered
  behind := fun row inside same => absurd same (unseen row inside)

theorem Planning.close {path : String} {plan : Plan DType} {rows : List (Row DType)}
    (planning : Planning stamps batchBytes path plan rows) :
    Planned stamps batchBytes (if plan.current = [] then plan.batches else plan.batches ++ [plan.pending path])
      rows := by
  split
  case isTrue fresh =>
    have listed := planning.listed
    rw [fresh, List.append_nil] at listed
    exact ⟨listed, planning.sound, planning.inside, planning.ordered⟩
  case isFalse filled =>
    refine ⟨?_, ?_, planning.inside, planning.ordered⟩
    · rw [List.flatMap_append, List.flatMap_singleton]
      exact planning.listed
    · intro batch inside
      rcases List.mem_append.mp inside with earlier | last
      · exact planning.sound batch earlier
      · cases List.mem_singleton.mp last
        exact planning.filling filled

theorem sortRows_perm (rows : List (Row DType)) : (sortRows rows).Perm rows := List.perm_insertionSort _ rows

theorem sortRows_sorted (rows : List (Row DType)) :
    (sortRows rows).Pairwise fun first second => first.2.offset ≤ second.2.offset := by
  have total : Std.Total fun first second : Row DType => first.2.offset ≤ second.2.offset :=
    ⟨fun first second => le_total first.2.offset second.2.offset⟩
  have trans : IsTrans (Row DType) fun first second => first.2.offset ≤ second.2.offset :=
    ⟨fun _ _ _ => le_trans⟩
  exact List.pairwise_insertionSort _ rows

/-- What rows of one file add to the plan. -/
theorem Planned.rows {batches : List (Batch DType)} {prior rows : List (Row DType)} {path : String} {stamp : Stamp}
    {plan : Plan DType} (planned : Planned stamps batchBytes batches prior)
    (unseen : ∀ row ∈ prior, row.2.file ≠ path) (placed : ∀ row ∈ rows, row.2.file = path)
    (known : stamps.get? path = some stamp)
    (looped : rows.foldlM (planRow path stamp.size batchBytes) ⟨batches, [], 0, 0⟩ = .ok plan) :
    Planning stamps batchBytes path plan (prior ++ rows) := by
  refine foldlM_carries (fun done plan => Planning stamps batchBytes path plan (prior ++ done)) ?_ ?_ looped
  · intro done row later plan next split planning stepped
    rw [← List.append_assoc]
    exact planning.row known (placed row (by simp [split])) stepped
  · rw [List.append_nil]
    exact planned.begin unseen

/-- The batch that is being filled ends with a row of its file. -/
theorem Planning.last {path : String} {plan : Plan DType} {prior rows : List (Row DType)}
    (planning : Planning stamps batchBytes path plan (prior ++ rows)) (unseen : ∀ row ∈ prior, row.2.file ≠ path)
    (filled : plan.current ≠ []) : ∃ last ∈ rows, last.2.file = path ∧ plan.stop = last.2.stop := by
  have sound := planning.filling filled
  have member : plan.current.getLast filled ∈ plan.current := List.getLast_mem filled
  have file : (plan.current.getLast filled).2.file = path := (sound.within _ member).1
  have listed := List.mem_append_right (plan.batches.flatMap Batch.tensors) member
  rw [planning.listed] at listed
  refine ⟨plan.current.getLast filled, ?_, file, sound.last _ (List.getLast?_eq_some_getLast filled)⟩
  rcases List.mem_append.mp listed with other | here
  · exact absurd file (unseen _ other)
  · exact here

/-- What one file adds to the plan. -/
theorem Planned.file {batches next : List (Batch DType)} {rows : List (Row DType)}
    {entry : String × List (Row DType)} (planned : Planned stamps batchBytes batches rows)
    (unseen : ∀ row ∈ rows, row.2.file ≠ entry.1) (placed : ∀ row ∈ entry.2, row.2.file = entry.1)
    (filed : planFile stamps batchBytes batches entry = .ok next) :
    Planned stamps batchBytes next (rows ++ sortRows entry.2) := by
  unfold planFile at filed
  split at filed
  · cases filed
  case h_2 stamp known =>
    obtain ⟨plan, looped, ended⟩ := bind_ok.mp filed
    cases ended
    have sorted : ∀ row ∈ sortRows entry.2, row.2.file = entry.1 := fun row inside =>
      placed row ((sortRows_perm _).mem_iff.mp inside)
    exact (planned.rows unseen sorted known looped).close

/-- The lists of the files hold what was collected, each tensor under its file. -/
structure Collected (elementSize : DType → Nat) (stamps : OrderedDict String Stamp) (rows : List (Row DType))
    (byFile : OrderedDict String (List (Row DType))) : Prop where
  files : ∀ path, byFile.get? path = none ↔ stamps.get? path = none
  placed : ∀ path listed, byFile.get? path = some listed → ∀ row ∈ listed, row.2.file = path
  aligned : ∀ row ∈ rows, row.2.bytes ≠ 0 → (elementSize row.2.dtype : Int) ∣ row.2.offset
  whole : (byFile.entries.flatMap Prod.snd).Perm (rows.filter fun row => row.2.bytes ≠ 0)

variable {elementSize : DType → Nat}

theorem noRows_get? (stamps : OrderedDict String Stamp) (path : String) :
    (noRows stamps : OrderedDict String (List (Row DType))).get? path = (stamps.get? path).map fun _ => [] := by
  simp only [OrderedDict.get?, noRows]
  induction stamps.entries with
  | nil => rfl
  | cons head tail ih =>
      rw [List.map_cons, List.lookup_cons, List.lookup_cons]
      cases path == head.1 with
      | true => rfl
      | false => exact ih

theorem Collected.begin (stamps : OrderedDict String Stamp) : Collected elementSize stamps [] (noRows stamps) where
  files path := by rw [noRows_get?, Option.map_eq_none_iff]
  placed path listed found := by
    rw [noRows_get?, Option.map_eq_some_iff] at found
    obtain ⟨_, _, rfl⟩ := found
    exact fun row inside => absurd inside List.not_mem_nil
  aligned _ inside := absurd inside List.not_mem_nil
  whole := by
    have empty : (noRows stamps : OrderedDict String (List (Row DType))).entries.flatMap Prod.snd = [] := by
      simp [noRows]
    rw [empty]
    rfl

/-- The new row joins the list of its file and no other. -/
theorem flatMap_set_perm {byFile : OrderedDict String (List (Row DType))} {path : String}
    {listed : List (Row DType)} (found : byFile.get? path = some listed) (row : Row DType) :
    ((byFile.set path (listed ++ [row])).entries.flatMap Prod.snd).Perm
      (byFile.entries.flatMap Prod.snd ++ [row]) := by
  have after := (byFile.set_perm path (listed ++ [row])).flatMap_right Prod.snd
  have before := (OrderedDict.erase_perm found).flatMap_right Prod.snd
  rw [List.flatMap_cons] at after before
  have moved : (listed ++ [row] ++ (byFile.erase path).entries.flatMap Prod.snd).Perm
      (listed ++ (byFile.erase path).entries.flatMap Prod.snd ++ [row]) := by
    rw [List.append_assoc, List.append_assoc]
    exact List.perm_append_comm.append_left listed
  exact after.trans (moved.trans (before.symm.append_right [row]))

theorem Collected.row {rows : List (Row DType)} {byFile next : OrderedDict String (List (Row DType))}
    {row : Row DType} (collected : Collected elementSize stamps rows byFile)
    (taken : collectRow elementSize byFile row = .ok next) : Collected elementSize stamps (rows ++ [row]) next := by
  unfold collectRow at taken
  split at taken
  case isTrue empty =>
    cases taken
    refine ⟨collected.files, collected.placed, ?_, ?_⟩
    · intro other inside nonempty
      rcases List.mem_append.mp inside with earlier | this
      · exact collected.aligned other earlier nonempty
      · cases List.mem_singleton.mp this
        exact absurd empty nonempty
    · rw [List.filter_append, List.filter_cons_of_neg (by simpa using empty), List.filter_nil, List.append_nil]
      exact collected.whole
  case isFalse nonempty =>
    split at taken
    · cases taken
    case isFalse aligned =>
      split at taken
      · cases taken
      case h_2 listed found =>
        cases taken
        refine ⟨?_, ?_, ?_, ?_⟩
        · intro path
          rw [OrderedDict.get?_set_none_iff found]
          exact collected.files path
        · intro path others present other inside
          rcases OrderedDict.get?_set_cases present with ⟨rfl, rfl⟩ | ⟨_, earlier⟩
          · rcases List.mem_append.mp inside with old | this
            · exact collected.placed _ _ found other old
            · cases List.mem_singleton.mp this
              rfl
          · exact collected.placed path others earlier other inside
        · intro other inside nonzero
          rcases List.mem_append.mp inside with earlier | this
          · exact collected.aligned other earlier nonzero
          · cases List.mem_singleton.mp this
            exact Int.dvd_of_emod_eq_zero (not_not.mp aligned)
        · rw [List.filter_append, List.filter_cons_of_pos (by simpa using nonempty), List.filter_nil]
          exact (flatMap_set_perm found row).trans (collected.whole.append_right [row])

theorem collect_ok {metadata : Metadata DType} {byFile : OrderedDict String (List (Row DType))}
    (looped : metadata.tensors.entries.foldlM (collectRow elementSize) (noRows metadata.stamps) = .ok byFile) :
    Collected elementSize metadata.stamps metadata.tensors.entries byFile :=
  foldlM_carries (Collected elementSize metadata.stamps)
    (fun _ _ _ _ _ _ collected taken => collected.row taken) (Collected.begin metadata.stamps) looped

theorem Collected.entry {rows : List (Row DType)} {byFile : OrderedDict String (List (Row DType))}
    (collected : Collected elementSize stamps rows byFile) {entry : String × List (Row DType)}
    (inside : entry ∈ byFile.entries) : ∀ row ∈ entry.2, row.2.file = entry.1 :=
  collected.placed entry.1 entry.2 (OrderedDict.get?_eq_some_iff.mpr inside)

/-- The files that are done are other files than the next one. -/
theorem Collected.unseen {rows : List (Row DType)} {byFile : OrderedDict String (List (Row DType))}
    (collected : Collected elementSize stamps rows byFile) {before after : List (String × List (Row DType))}
    {entry : String × List (Row DType)} (split : byFile.entries = before ++ entry :: after) :
    ∀ row ∈ before.flatMap fun done => sortRows done.2, row.2.file ≠ entry.1 := by
  intro row inside same
  obtain ⟨done, earlier, listed⟩ := List.mem_flatMap.mp inside
  have placed := collected.entry (by rw [split]; exact List.mem_append_left _ earlier) row
    ((sortRows_perm _).mem_iff.mp listed)
  have distinct := byFile.nodup
  rw [split, List.map_append, List.map_cons, List.nodup_append] at distinct
  exact distinct.2.2 done.1 (List.mem_map_of_mem earlier) entry.1 List.mem_cons_self (placed.symm.trans same)

/-- The files so far, one after another. -/
theorem Collected.files_planned {rows : List (Row DType)} {byFile : OrderedDict String (List (Row DType))}
    (collected : Collected elementSize stamps rows byFile) {done : List (String × List (Row DType))}
    (initial : done <+: byFile.entries) {batches : List (Batch DType)}
    (planned : done.foldlM (planFile stamps batchBytes) [] = .ok batches) :
    Planned stamps batchBytes batches (done.flatMap fun entry => sortRows entry.2) := by
  obtain ⟨rest, whole⟩ := initial
  refine foldlM_carries (fun done batches => Planned stamps batchBytes batches (done.flatMap fun entry => sortRows entry.2))
    ?_ ⟨rfl, List.forall_mem_nil _, List.forall_mem_nil _, List.Pairwise.nil⟩ planned
  intro before entry after batches next split earlier filed
  have place : byFile.entries = before ++ entry :: (after ++ rest) := by
    rw [← whole, split, List.append_assoc, List.cons_append]
  rw [List.flatMap_append, List.flatMap_singleton]
  exact earlier.file (collected.unseen place) (collected.entry (by simp [place])) filed

theorem Collected.listed {metadata : Metadata DType} {byFile : OrderedDict String (List (Row DType))}
    (collected : Collected elementSize metadata.stamps metadata.tensors.entries byFile)
    {entry : String × List (Row DType)} (inside : entry ∈ byFile.entries) {row : Row DType}
    (listed : row ∈ entry.2) : row ∈ metadata.nonempty :=
  collected.whole.mem_iff.mp (List.mem_flatMap.mpr ⟨entry, inside, listed⟩)

/-- The tensors of a file have different names. -/
theorem Collected.distinct {metadata : Metadata DType} {byFile : OrderedDict String (List (Row DType))}
    (collected : Collected elementSize metadata.stamps metadata.tensors.entries byFile)
    {entry : String × List (Row DType)} (inside : entry ∈ byFile.entries) :
    ((sortRows entry.2).map Prod.fst).Nodup := by
  have names : (metadata.nonempty.map Prod.fst).Nodup :=
    metadata.tensors.nodup.sublist (List.filter_sublist.map Prod.fst)
  have whole := (collected.whole.map Prod.fst).nodup_iff.mpr names
  obtain ⟨before, after, split⟩ := List.append_of_mem inside
  rw [split, List.flatMap_append, List.flatMap_cons, List.map_append, List.map_append] at whole
  have mine := (List.nodup_append.mp (List.nodup_append.mp whole).2.1).1
  exact ((sortRows_perm entry.2).map Prod.fst).nodup_iff.mpr mine

theorem planRow_error {path : String} {size : Int} {plan : Plan DType} {row : Row DType} {error : PlanError}
    (failed : planRow path size batchBytes plan row = .error error) :
    ¬(0 ≤ row.2.offset ∧ row.2.offset < row.2.stop ∧ row.2.stop ≤ size) ∨
      row.2.offset < row.2.stop ∧ plan.current ≠ [] ∧ row.2.offset < plan.stop := by
  unfold planRow at failed
  simp only at failed
  split at failed
  case isTrue outside => exact .inl outside
  case isFalse range =>
    split at failed
    case isTrue overlap => exact .inr ⟨(not_not.mp range).2.1, overlap⟩
    case isFalse => cases failed

/-- A tensor at which the loop over a file fails is outside the file or on top of the one before it. -/
theorem planFile_error {metadata : Metadata DType} {byFile : OrderedDict String (List (Row DType))}
    (collected : Collected elementSize metadata.stamps metadata.tensors.entries byFile)
    {before after : List (String × List (Row DType))} {entry : String × List (Row DType)}
    (split : byFile.entries = before ++ entry :: after) {batches : List (Batch DType)}
    (planned : before.foldlM (planFile metadata.stamps batchBytes) [] = .ok batches) {error : PlanError}
    (failed : planFile metadata.stamps batchBytes batches entry = .error error) :
    metadata.Defective elementSize := by
  have inside : entry ∈ byFile.entries := by simp [split]
  have earlier := collected.files_planned ⟨entry :: after, split.symm⟩ planned
  have unseen := collected.unseen split
  unfold planFile at failed
  split at failed
  case h_1 unknown =>
    have known := OrderedDict.get?_eq_some_iff.mpr inside
    rw [(collected.files entry.1).mpr unknown] at known
    cases known
  case h_2 stamp known =>
    rcases bind_error.mp failed with looped | ⟨_, _, impossible⟩
    case inr => cases impossible
    obtain ⟨done, row, rest, plan, sorted, reached, stopped⟩ := foldlM_fails looped
    have member : ∀ other, other ∈ sortRows entry.2 → other ∈ entry.2 := fun other => (sortRows_perm _).mem_iff.mp
    have this : row ∈ entry.2 := member row (by simp [sorted])
    have placed : row.2.file = entry.1 := collected.entry inside row this
    refine ⟨row, collected.listed inside this, .inr ?_⟩
    rcases planRow_error stopped with outside | ⟨long, filled, overlap⟩
    · refine .inl ?_
      rintro ⟨found, same, range⟩
      rw [placed, known] at same
      cases same
      exact outside range
    · have first : ∀ other ∈ done, other.2.file = entry.1 := fun other early =>
        collected.entry inside other (member other (by rw [sorted]; exact List.mem_append_left _ early))
      have planning := earlier.rows unseen first known reached
      obtain ⟨last, previous, file, ends⟩ := planning.last unseen filled
      have listed : last ∈ entry.2 := member last (by rw [sorted]; exact List.mem_append_left _ previous)
      refine .inr ⟨last, collected.listed inside listed, ?_, ?_⟩
      · have names := collected.distinct inside
        rw [sorted, List.map_append, List.map_cons, List.nodup_append] at names
        exact names.2.2 _ (List.mem_map_of_mem previous) _ List.mem_cons_self
      · have order := sortRows_sorted entry.2
        rw [sorted, List.pairwise_append] at order
        have below := order.2.2 _ previous row List.mem_cons_self
        exact ⟨placed.trans file.symm, ends ▸ overlap, lt_of_le_of_lt below long⟩

theorem collectRow_error {metadata : Metadata DType} {rows : List (Row DType)} {row : Row DType}
    {byFile : OrderedDict String (List (Row DType))}
    (collected : Collected elementSize metadata.stamps rows byFile) (inside : row ∈ metadata.tensors.entries)
    {error : PlanError} (failed : collectRow elementSize byFile row = .error error) :
    metadata.Defective elementSize := by
  unfold collectRow at failed
  split at failed
  · cases failed
  case isFalse nonempty =>
    refine ⟨row, List.mem_filter.mpr ⟨inside, by simpa using nonempty⟩, ?_⟩
    split at failed
    case isTrue unaligned => exact .inl fun aligned => unaligned (Int.emod_eq_zero_of_dvd aligned)
    case isFalse =>
      split at failed
      case h_1 unknown =>
        refine .inr (.inl ?_)
        rintro ⟨stamp, found, _⟩
        rw [(collected.files row.2.file).mp unknown] at found
        cases found
      case h_2 => cases failed

/-- A plan that is made has no defect. -/
theorem Planned.sound_metadata {metadata : Metadata DType} {rows : List (Row DType)}
    {batches : List (Batch DType)} (planned : Planned metadata.stamps batchBytes batches rows)
    (whole : rows.Perm metadata.nonempty)
    (aligned : ∀ row ∈ metadata.nonempty, (elementSize row.2.dtype : Int) ∣ row.2.offset) :
    ¬metadata.Defective elementSize := by
  rintro ⟨row, inside, unaligned | outside | ⟨other, present, different, overlap⟩⟩
  · exact unaligned (aligned row inside)
  · exact outside (planned.inside row (whole.mem_iff.mpr inside))
  · have apart : rows.Pairwise fun first second => ¬first.2.Overlaps second.2 ∧ ¬second.2.Overlaps first.2 := by
      refine planned.ordered.imp ?_
      intro first second before
      constructor
      · rintro ⟨same, _, low⟩
        have := before same
        omega
      · rintro ⟨same, low, _⟩
        have := before same.symm
        omega
    have symmetric : Std.Symm fun first second : Row DType =>
        ¬first.2.Overlaps second.2 ∧ ¬second.2.Overlaps first.2 := ⟨fun _ _ => And.symm⟩
    exact (apart.forall (whole.mem_iff.mpr inside) (whole.mem_iff.mpr present)
      fun same => different (by rw [same])).1 overlap

theorem planBatches_sized {metadata : Metadata DType} (positive : 0 < batchBytes)
    (multiple : (ALIGN : Int) ∣ batchBytes) :
    planBatches elementSize metadata batchBytes =
      (metadata.tensors.entries.foldlM (collectRow elementSize) (noRows metadata.stamps) >>= fun byFile =>
        byFile.entries.foldlM (planFile metadata.stamps batchBytes) []) := by
  have large : (ALIGN : Int) ≤ batchBytes := Int.le_of_dvd positive multiple
  have sized : ¬(batchBytes < ALIGN ∨ batchBytes % ALIGN ≠ 0) := by
    rw [not_or, not_lt, not_not]
    exact ⟨large, Int.emod_eq_zero_of_dvd multiple⟩
  rw [planBatches, if_neg sized]

/-- The rows of the plan are the nonempty tensors. -/
theorem planBatches_ok {metadata : Metadata DType} (positive : 0 < batchBytes)
    (multiple : (ALIGN : Int) ∣ batchBytes) {batches : List (Batch DType)}
    (planned : planBatches elementSize metadata batchBytes = .ok batches) :
    ∃ rows, Planned metadata.stamps batchBytes batches rows ∧ rows.Perm metadata.nonempty ∧
      ∀ row ∈ metadata.nonempty, (elementSize row.2.dtype : Int) ∣ row.2.offset := by
  rw [planBatches_sized positive multiple, bind_ok] at planned
  obtain ⟨byFile, looped, filed⟩ := planned
  have collected := collect_ok looped
  refine ⟨_, collected.files_planned (List.prefix_refl _) filed, ?_, ?_⟩
  · have sorted := List.Perm.flatMap_left byFile.entries fun entry _ => sortRows_perm entry.2
    exact sorted.trans collected.whole
  · intro row inside
    obtain ⟨listed, nonempty⟩ := List.mem_filter.mp inside
    exact collected.aligned row listed (by simpa using nonempty)

theorem planBatches_error {metadata : Metadata DType} (positive : 0 < batchBytes)
    (multiple : (ALIGN : Int) ∣ batchBytes) {error : PlanError}
    (failed : planBatches elementSize metadata batchBytes = .error error) : metadata.Defective elementSize := by
  rw [planBatches_sized positive multiple, bind_error] at failed
  rcases failed with collecting | ⟨byFile, looped, filing⟩
  · obtain ⟨before, row, after, byFile, split, reached, stopped⟩ := foldlM_fails collecting
    have collected := foldlM_carries (Collected elementSize metadata.stamps)
      (fun _ _ _ _ _ _ collected taken => collected.row taken) (Collected.begin metadata.stamps) reached
    exact collectRow_error collected (by simp [split]) stopped
  · obtain ⟨before, entry, after, batches, split, reached, stopped⟩ := foldlM_fails filing
    exact planFile_error (collect_ok looped) split reached stopped

/-- A plan is refused exactly when the checkpoint is defective, and else holds every nonempty tensor
once, in the order of its file, in batches that start aligned and only outgrow their size for a single
tensor. -/
theorem planBatches_sound_complete (elementSize : DType → Nat) (metadata : Metadata DType) {batchBytes : Int}
    (positive : 0 < batchBytes) (multiple : (ALIGN : Int) ∣ batchBytes) :
    ((∃ error, planBatches elementSize metadata batchBytes = .error error) ↔ metadata.Defective elementSize) ∧
      ∀ batches, planBatches elementSize metadata batchBytes = .ok batches →
        (batches.flatMap Batch.tensors).Perm metadata.nonempty ∧
          (batches.flatMap Batch.tensors).Pairwise Row.Before ∧ ∀ batch ∈ batches, batch.Sound batchBytes := by
  constructor
  · constructor
    · rintro ⟨error, failed⟩
      exact planBatches_error positive multiple failed
    · intro defective
      cases result : planBatches elementSize metadata batchBytes with
      | error error => exact ⟨error, rfl⟩
      | ok batches =>
          obtain ⟨rows, planned, whole, aligned⟩ := planBatches_ok positive multiple result
          exact absurd defective (planned.sound_metadata whole aligned)
  · intro batches result
    obtain ⟨rows, planned, whole, _⟩ := planBatches_ok positive multiple result
    rw [planned.listed]
    exact ⟨whole, planned.ordered, planned.sound⟩

/-- Two tensors of one file and a file without tensors, in batches of one block. -/
def twoTensors : Metadata Nat where
  tensors := ⟨[("late", ⟨[3000], 1, 3000, "a", 3000⟩), ("empty", ⟨[0], 1, 0, "a", 8⟩),
    ("early", ⟨[700], 4, 2800, "a", 16⟩)], by decide⟩
  stamps := ⟨[("a", ⟨0, 1, 6000, 0, 0⟩), ("b", ⟨0, 2, 10, 0, 0⟩)], by decide⟩

theorem planBatches_sound_complete_twoTensors :
    ((∃ error, planBatches id twoTensors 4096 = .error error) ↔ twoTensors.Defective id) ∧
      ∀ batches, planBatches id twoTensors 4096 = .ok batches →
        (batches.flatMap Batch.tensors).Perm twoTensors.nonempty ∧
          (batches.flatMap Batch.tensors).Pairwise Row.Before ∧ ∀ batch ∈ batches, batch.Sound 4096 :=
  planBatches_sound_complete id twoTensors (by decide) (by decide)

example : (planBatches id twoTensors 4096).map (List.map fun batch => (batch.start, batch.stop)) =
    .ok [(0, 2816), (0, 6000)] := by decide

end DgxSpark.Nvme
