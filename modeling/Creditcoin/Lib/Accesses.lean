import Mathlib.Data.List.Infix
import Mathlib.Data.List.Nodup
import Mathlib.Logic.Relation

/-!
# Accesses to overlapping places

Tasks read and write places, and a place stands for everything that its path leads to. Tasks are
added one by one. A table keeps the last writer of every place and its readers since, and a write
clears the places below it. A task comes after the tasks that the table finds for its places, and
so, through others, after every earlier task that it conflicts with.
-/

namespace Lib.Accesses

variable {κ τ : Type}

/-- What a table keeps of a place. -/
structure Marks (τ : Type) where
  /-- The readers since the last write. -/
  readers : List τ
  /-- The last writer. -/
  writer : Option τ

/-- What is kept of every place. -/
abbrev Table (κ τ : Type) : Type := List κ → Marks τ

/-- A task with the places that it reads and writes. -/
structure Task (κ τ : Type) where
  /-- The name of the task. -/
  name : τ
  /-- The places that it reads. -/
  reads : List (List κ)
  /-- The places that it writes. -/
  writes : List (List κ)

/-- One place leads to the other. -/
def Overlaps (left right : List κ) : Prop := left <+: right ∨ right <+: left

/-- One of the tasks writes what the other reads or writes. -/
def Task.Conflicts (earlier later : Task κ τ) : Prop :=
  (∃ place ∈ earlier.writes, ∃ other ∈ later.reads ++ later.writes, Overlaps place other) ∨
    ∃ place ∈ earlier.reads, ∃ other ∈ later.writes, Overlaps place other

namespace Table

/-- The writer is the last one of the nearest written place that leads to a place. -/
def Encloses (table : Table κ τ) (place : List κ) (writer : τ) : Prop :=
  ∃ outer, outer <+: place ∧ (table outer).writer = some writer ∧
    ∀ inner, outer <+: inner → inner <+: place → (table inner).writer ≠ none → inner = outer

/-- The tasks that the table finds for an access to a place. -/
def Precedes (table : Table κ τ) (isWrite : Bool) (place : List κ) (earlier : τ) : Prop :=
  table.Encloses place earlier ∨
    (∃ inner, place <+: inner ∧ inner ≠ place ∧ (table inner).writer = some earlier) ∨
      (isWrite = true ∧ ∃ other, Overlaps other place ∧ earlier ∈ (table other).readers)

variable [DecidableEq κ]

/-- Add a reader of a place. -/
def read (reader : τ) (table : Table κ τ) (place : List κ) : Table κ τ :=
  fun other =>
    if other = place then { table other with readers := (table other).readers ++ [reader] }
    else table other

/-- Set the writer of a place. -/
def write (writer : τ) (table : Table κ τ) (place : List κ) : Table κ τ :=
  fun other =>
    if other = place then ⟨[], some writer⟩ else if place <+: other then ⟨[], none⟩ else table other

end Table

/-- The table of the tasks added so far, and which of them comes directly before which. -/
structure Precedence (κ τ : Type) where
  /-- What is kept of every place. -/
  table : Table κ τ
  /-- The first task comes directly before the second. -/
  before : τ → τ → Prop

namespace Precedence

/-- No task is added yet. -/
def start : Precedence κ τ := ⟨fun _ => ⟨[], none⟩, fun _ _ => False⟩

/-- A task comes before another one, or is that task. -/
abbrev Reaches (order : Precedence κ τ) : τ → τ → Prop := Relation.ReflTransGen order.before

/-- The tasks that the table finds for the places of a task. -/
def Finds (table : Table κ τ) (task : Task κ τ) (earlier : τ) : Prop :=
  (∃ place ∈ task.reads, table.Precedes false place earlier) ∨
    ∃ place ∈ task.writes, table.Precedes true place earlier

variable [DecidableEq κ] [DecidableEq τ]

/-- The table after the accesses of a task. -/
def after (table : Table κ τ) (task : Task κ τ) : Table κ τ :=
  task.writes.foldl (Table.write task.name) (task.reads.foldl (Table.read task.name) table)

/-- Add a task. -/
def add (order : Precedence κ τ) (task : Task κ τ) : Precedence κ τ where
  table := after order.table task
  before earlier later :=
    if later = task.name then Finds order.table task earlier else order.before earlier later

end Precedence

/-! ## Tables -/

section Tables

variable {table : Table κ τ} {place other outer inner : List κ} {name writer member : τ}

/-- A written place that leads to a place has a nearest one below it. -/
theorem Table.exists_encloses (leads : outer <+: place)
    (written : (table outer).writer = some writer) :
    ∃ nearest closest, outer <+: nearest ∧ nearest <+: place ∧
      (table nearest).writer = some closest ∧ table.Encloses place closest := by
  induction gap : place.length - outer.length using Nat.strong_induction_on
    generalizing outer writer with
  | h gap' ih =>
    by_cases last : ∀ inner, outer <+: inner → inner <+: place → (table inner).writer ≠ none →
        inner = outer
    · exact ⟨outer, writer, List.prefix_rfl, leads, written, outer, leads, written, last⟩
    · push Not at last
      obtain ⟨inner, deeper, leads', marked, different⟩ := last
      obtain ⟨writer', written'⟩ := Option.ne_none_iff_exists'.mp marked
      have shrinks : place.length - inner.length < gap' := by
        have longer : outer.length < inner.length := by
          apply lt_of_le_of_ne deeper.length_le
          intro same
          exact different (deeper.eq_of_length same).symm
        have bound := leads'.length_le
        omega
      obtain ⟨nearest, closest, under, within, found⟩ := ih _ shrinks leads' written' rfl
      exact ⟨nearest, closest, deeper.trans under, within, found⟩

/-- The writer of a place under an accessed place is found. -/
theorem Table.precedes_of_below {isWrite : Bool} (leads : place <+: inner)
    (written : (table inner).writer = some writer) : table.Precedes isWrite place writer := by
  by_cases same : inner = place
  · subst same
    refine .inl ⟨inner, List.prefix_rfl, written, ?_⟩
    intro deeper forth back _
    exact back.eq_of_length_le forth.length_le
  · exact .inr (.inl ⟨inner, leads, same, written⟩)

variable [DecidableEq κ]

/-- Readers change no writer. -/
theorem Table.writer_foldl_read (places : List (List κ)) :
    (places.foldl (Table.read name) table other).writer = (table other).writer := by
  induction places generalizing table with
  | nil => rfl
  | cons place places ih =>
    rw [List.foldl_cons, ih, Table.read]
    split <;> rfl

/-- The readers after some are added. -/
theorem Table.mem_readers_foldl_read (places : List (List κ)) :
    member ∈ (places.foldl (Table.read name) table other).readers ↔
      member ∈ (table other).readers ∨ member = name ∧ other ∈ places := by
  induction places generalizing table with
  | nil => simp
  | cons place places ih =>
    rw [List.foldl_cons, ih, Table.read]
    by_cases same : other = place
    · subst same
      simp only [if_true, List.mem_append, List.mem_cons, true_or, and_true]
      tauto
    · rw [if_neg same, List.mem_cons, or_iff_right same]

/-- Writes leave the places that they do not lead to. -/
theorem Table.foldl_write_apart {places : List (List κ)}
    (apart : ∀ place ∈ places, ¬ place <+: other) :
    places.foldl (Table.write name) table other = table other := by
  induction places generalizing table with
  | nil => rfl
  | cons place places ih =>
    rw [List.forall_mem_cons] at apart
    have different : other ≠ place := by
      rintro rfl
      exact apart.1 List.prefix_rfl
    rw [List.foldl_cons, ih apart.2, Table.write, if_neg different, if_neg apart.1]

/-- Writes clear the places that they lead to. -/
theorem Table.foldl_write_below (name : τ) (table : Table κ τ) {places : List (List κ)}
    (below : ∃ place ∈ places, place <+: other) :
    (places.foldl (Table.write name) table other).readers = [] ∧
      ((places.foldl (Table.write name) table other).writer = none ∨
        (places.foldl (Table.write name) table other).writer = some name ∧ other ∈ places) := by
  induction places using List.reverseRecOn generalizing other with
  | nil =>
    obtain ⟨place, listed, _⟩ := below
    exact absurd listed List.not_mem_nil
  | append_singleton places last ih =>
    rw [List.foldl_append, List.foldl_cons, List.foldl_nil, Table.write]
    by_cases same : other = last
    · rw [if_pos same]
      exact ⟨rfl, .inr ⟨rfl, by simp [same]⟩⟩
    · by_cases cleared : last <+: other
      · rw [if_neg same, if_pos cleared]
        exact ⟨rfl, .inl rfl⟩
      · rw [if_neg same, if_neg cleared]
        obtain ⟨place, listed, leads⟩ := below
        have earlier : place ∈ places := by
          rcases List.mem_append.mp listed with listed | listed
          · exact listed
          · obtain rfl := List.mem_singleton.mp listed
            exact absurd leads cleared
        have kept := ih ⟨place, earlier, leads⟩
        exact ⟨kept.1, kept.2.imp_right fun found =>
          ⟨found.1, List.mem_append_left _ found.2⟩⟩

/-- A place that a write leads to has the writer at or above it. -/
theorem Table.foldl_write_covers (name : τ) (table : Table κ τ) {places : List (List κ)}
    (below : ∃ place ∈ places, place <+: other) :
    ∃ outer, outer <+: other ∧
      (places.foldl (Table.write name) table outer).writer = some name := by
  induction places using List.reverseRecOn generalizing other with
  | nil =>
    obtain ⟨place, listed, _⟩ := below
    exact absurd listed List.not_mem_nil
  | append_singleton places last ih =>
    rw [List.foldl_append, List.foldl_cons, List.foldl_nil]
    by_cases cleared : last <+: other
    · exact ⟨last, cleared, by rw [Table.write, if_pos rfl]⟩
    · obtain ⟨place, listed, leads⟩ := below
      have earlier : place ∈ places := by
        rcases List.mem_append.mp listed with listed | listed
        · exact listed
        · obtain rfl := List.mem_singleton.mp listed
          exact absurd leads cleared
      obtain ⟨outer, leads', written⟩ := ih ⟨place, earlier, leads⟩
      have apart : ¬ last <+: outer := fun under => cleared (under.trans leads')
      have different : outer ≠ last := by
        rintro rfl
        exact apart List.prefix_rfl
      exact ⟨outer, leads', by rw [Table.write, if_neg different, if_neg apart]; exact written⟩

end Tables

/-! ## Orders -/

namespace Precedence

variable {order : Precedence κ τ} {tasks : List (Task κ τ)} {task : Task κ τ}

/-- The place is written, at it or above it, by a task that comes no earlier than the named one. -/
def Covered (order : Precedence κ τ) (place : List κ) (name : τ) : Prop :=
  ∃ outer writer, outer <+: place ∧ (order.table outer).writer = some writer ∧
    order.Reaches name writer

/-- What an order keeps of the tasks that were added. -/
structure Keeps (order : Precedence κ τ) (tasks : List (Task κ τ)) : Prop where
  /-- Only tasks that were added come after others. -/
  named : ∀ earlier later, order.before earlier later → later ∈ tasks.map Task.name
  /-- What was written is covered. -/
  written : ∀ task ∈ tasks, ∀ place ∈ task.writes, order.Covered place task.name
  /-- What was read has its reader or is covered. -/
  read : ∀ task ∈ tasks, ∀ place ∈ task.reads,
    task.name ∈ (order.table place).readers ∨ order.Covered place task.name
  /-- A writer comes before the writers below it. -/
  nested : ∀ outer inner writer writer', outer <+: inner →
    (order.table outer).writer = some writer → (order.table inner).writer = some writer' →
      order.Reaches writer writer'
  /-- A writer in the table writes there. -/
  writes : ∀ place name, (order.table place).writer = some name →
    ∃ task ∈ tasks, task.name = name ∧ place ∈ task.writes
  /-- A reader in the table reads there. -/
  reads : ∀ place name, name ∈ (order.table place).readers →
    ∃ task ∈ tasks, task.name = name ∧ place ∈ task.reads

/-- Nothing is kept of no tasks. -/
theorem keeps_start : (start : Precedence κ τ).Keeps [] where
  named _ _ impossible := impossible.elim
  written _ listed := absurd listed List.not_mem_nil
  read _ listed := absurd listed List.not_mem_nil
  nested _ _ _ _ _ impossible := nomatch impossible
  writes _ _ impossible := nomatch impossible
  reads _ _ impossible := absurd impossible List.not_mem_nil

/-- For an access that overlaps a covered place the table finds a task that comes no earlier. -/
theorem Keeps.precedes_of_covered (kept : order.Keeps tasks) {place other : List κ} {name : τ}
    (covered : order.Covered place name) (overlap : Overlaps place other) (isWrite : Bool) :
    ∃ later, order.table.Precedes isWrite other later ∧ order.Reaches name later := by
  obtain ⟨outer, writer, leads, written, reached⟩ := covered
  have enclosed (above : outer <+: other) :
      ∃ later, order.table.Precedes isWrite other later ∧ order.Reaches name later := by
    obtain ⟨nearest, closest, under, _, marked, encloses⟩ := Table.exists_encloses above written
    exact ⟨closest, .inl encloses,
      reached.trans (kept.nested outer nearest writer closest under written marked)⟩
  rcases overlap with down | up
  · exact enclosed (leads.trans down)
  · rcases List.prefix_or_prefix_of_prefix leads up with above | below
    · exact enclosed above
    · exact ⟨writer, Table.precedes_of_below below written, reached⟩

/-- The table finds only tasks whose accesses conflict with the access. -/
theorem Keeps.conflict_of_finds (kept : order.Keeps tasks) {earlier : τ}
    (found : Finds order.table task earlier) :
    ∃ other ∈ tasks, other.name = earlier ∧ other.Conflicts task := by
  have writers {place : List κ} (accessed : place ∈ task.reads ++ task.writes)
      (precedes : order.table.Encloses place earlier ∨ ∃ inner, place <+: inner ∧ inner ≠ place ∧
        (order.table inner).writer = some earlier) :
      ∃ other ∈ tasks, other.name = earlier ∧ other.Conflicts task := by
    rcases precedes with ⟨outer, leads, written, _⟩ | ⟨inner, leads, _, written⟩
    · obtain ⟨other, listed, named, writes⟩ := kept.writes outer earlier written
      exact ⟨other, listed, named, .inl ⟨outer, writes, place, accessed, .inl leads⟩⟩
    · obtain ⟨other, listed, named, writes⟩ := kept.writes inner earlier written
      exact ⟨other, listed, named, .inl ⟨inner, writes, place, accessed, .inr leads⟩⟩
  rcases found with ⟨place, listed, precedes⟩ | ⟨place, listed, precedes⟩
  · rcases precedes with encloses | below | ⟨impossible, _⟩
    · exact writers (List.mem_append_left _ listed) (.inl encloses)
    · exact writers (List.mem_append_left _ listed) (.inr below)
    · cases impossible
  · rcases precedes with encloses | below | ⟨_, other, overlap, marked⟩
    · exact writers (List.mem_append_right _ listed) (.inl encloses)
    · exact writers (List.mem_append_right _ listed) (.inr below)
    · obtain ⟨reader, added, named, reads⟩ := kept.reads other earlier marked
      exact ⟨reader, added, named, .inr ⟨other, reads, place, listed, overlap⟩⟩

variable [DecidableEq κ] [DecidableEq τ]

/-- The tasks that the table finds come directly before the added one. -/
theorem add_before {earlier : τ} (found : Finds order.table task earlier) :
    (order.add task).before earlier task.name := by
  change if task.name = task.name then _ else _
  rw [if_pos rfl]
  exact found

/-- The order of the tasks added before stays. -/
theorem Keeps.reaches_add (kept : order.Keeps tasks) (fresh : task.name ∉ tasks.map Task.name)
    {earlier later : τ} (reached : order.Reaches earlier later) :
    (order.add task).Reaches earlier later := by
  refine Relation.ReflTransGen.mono ?_ _ _ reached
  intro first second direct
  change if second = task.name then _ else _
  rw [if_neg]
  · exact direct
  · rintro rfl
    exact fresh (kept.named first _ direct)

/-- An earlier task that conflicts with the added one comes before it. -/
theorem Keeps.reaches_of_conflicts (kept : order.Keeps tasks)
    (fresh : task.name ∉ tasks.map Task.name) {other : Task κ τ} (listed : other ∈ tasks)
    (conflicts : other.Conflicts task) : (order.add task).Reaches other.name task.name := by
  have direct {earlier : τ} (found : Finds order.table task earlier)
      (reached : order.Reaches other.name earlier) :
      (order.add task).Reaches other.name task.name :=
    (kept.reaches_add fresh reached).tail (add_before found)
  rcases conflicts with ⟨place, writes, access, accessed, overlap⟩ |
    ⟨place, reads, access, accessed, overlap⟩
  · have covered := kept.written other listed place writes
    rcases List.mem_append.mp accessed with isRead | isWrite
    · obtain ⟨later, precedes, reached⟩ := kept.precedes_of_covered covered overlap false
      exact direct (.inl ⟨access, isRead, precedes⟩) reached
    · obtain ⟨later, precedes, reached⟩ := kept.precedes_of_covered covered overlap true
      exact direct (.inr ⟨access, isWrite, precedes⟩) reached
  · rcases kept.read other listed place reads with marked | covered
    · exact direct (.inr ⟨access, accessed, .inr (.inr ⟨rfl, place, overlap, marked⟩)⟩)
        Relation.ReflTransGen.refl
    · obtain ⟨later, precedes, reached⟩ := kept.precedes_of_covered covered overlap true
      exact direct (.inr ⟨access, accessed, precedes⟩) reached

omit [DecidableEq τ] in
/-- Outside the places that a task writes, the table keeps its writers. -/
theorem after_apart {table : Table κ τ} {place : List κ}
    (apart : ∀ written ∈ task.writes, ¬ written <+: place) :
    (after table task place).writer = (table place).writer := by
  rw [after, Table.foldl_write_apart apart, Table.writer_foldl_read]

omit [DecidableEq τ] in
/-- The writers after a task. -/
theorem after_writer {table : Table κ τ} {place : List κ} {name : τ}
    (marked : (after table task place).writer = some name) :
    name = task.name ∧ place ∈ task.writes ∨
      (table place).writer = some name ∧ ∀ written ∈ task.writes, ¬ written <+: place := by
  by_cases apart : ∀ written ∈ task.writes, ¬ written <+: place
  · rw [after_apart apart] at marked
    exact .inr ⟨marked, apart⟩
  · push Not at apart
    obtain ⟨_, none | ⟨some, listed⟩⟩ :=
      Table.foldl_write_below task.name (task.reads.foldl (Table.read task.name) table) apart
    · rw [after, none] at marked
      cases marked
    · rw [after, some] at marked
      exact .inl ⟨(Option.some.inj marked).symm, listed⟩

/-- What was covered before a task is covered after it. -/
theorem Keeps.covered_add (kept : order.Keeps tasks) (fresh : task.name ∉ tasks.map Task.name)
    {place : List κ} {name : τ} (covered : order.Covered place name) :
    (order.add task).Covered place name := by
  obtain ⟨outer, writer, leads, written, reached⟩ := covered
  by_cases apart : ∀ written ∈ task.writes, ¬ written <+: outer
  · exact ⟨outer, writer, leads, (after_apart apart).trans written, kept.reaches_add fresh reached⟩
  · -- the task wrote at or above the place, and then comes after its writer
    push Not at apart
    obtain ⟨access, accessed, above⟩ := apart
    obtain ⟨outer', leads', covers⟩ := Table.foldl_write_covers task.name
      (task.reads.foldl (Table.read task.name) order.table) ⟨access, accessed, above⟩
    have direct : (order.add task).before writer task.name :=
      add_before (.inr ⟨access, accessed, Table.precedes_of_below above written⟩)
    exact ⟨outer', task.name, leads'.trans leads, covers,
      (kept.reaches_add fresh reached).tail direct⟩

/-- Adding a task keeps what the order keeps. -/
theorem Keeps.add (kept : order.Keeps tasks) (fresh : task.name ∉ tasks.map Task.name) :
    (order.add task).Keeps (tasks ++ [task]) := by
  have covers {place : List κ} (below : ∃ written ∈ task.writes, written <+: place) :
      ∃ outer, outer <+: place ∧ ((order.add task).table outer).writer = some task.name :=
    Table.foldl_write_covers _ _ below
  constructor
  case named =>
    intro earlier later direct
    rw [List.map_append, List.mem_append]
    change if later = task.name then _ else _ at direct
    by_cases same : later = task.name
    · exact .inr (by simp [same])
    · rw [if_neg same] at direct
      exact .inl (kept.named earlier later direct)
  case written =>
    intro other listed place writes
    rcases List.mem_append.mp listed with old | added
    · exact kept.covered_add fresh (kept.written other old place writes)
    · obtain rfl := List.mem_singleton.mp added
      obtain ⟨outer, leads, written⟩ := covers ⟨place, writes, List.prefix_rfl⟩
      exact ⟨outer, _, leads, written, Relation.ReflTransGen.refl⟩
  case read =>
    intro other listed place reads
    by_cases apart : ∀ written ∈ task.writes, ¬ written <+: place
    · have readers {name : τ} : name ∈ ((order.add task).table place).readers ↔
          name ∈ (order.table place).readers ∨ name = task.name ∧ place ∈ task.reads := by
        change name ∈ (after order.table task place).readers ↔ _
        rw [after, Table.foldl_write_apart apart, Table.mem_readers_foldl_read]
      rcases List.mem_append.mp listed with old | added
      · exact (kept.read other old place reads).imp (fun marked => readers.mpr (.inl marked))
          (kept.covered_add fresh)
      · obtain rfl := List.mem_singleton.mp added
        exact .inl (readers.mpr (.inr ⟨rfl, reads⟩))
    · push Not at apart
      obtain ⟨access, accessed, above⟩ := apart
      right
      rcases List.mem_append.mp listed with old | added
      · rcases kept.read other old place reads with marked | covered
        · -- the reader is cleared by a task that comes after it
          obtain ⟨outer, leads, written⟩ := covers ⟨access, accessed, above⟩
          have direct : (order.add task).before other.name task.name :=
            add_before (.inr ⟨access, accessed, .inr (.inr ⟨rfl, place, .inr above, marked⟩)⟩)
          exact ⟨outer, _, leads, written, Relation.ReflTransGen.single direct⟩
        · exact kept.covered_add fresh covered
      · obtain rfl := List.mem_singleton.mp added
        obtain ⟨outer, leads, written⟩ := covers ⟨access, accessed, above⟩
        exact ⟨outer, _, leads, written, Relation.ReflTransGen.refl⟩
  case nested =>
    intro outer inner writer writer' leads marked marked'
    rcases after_writer marked' with ⟨rfl, accessed⟩ | ⟨old', apart'⟩
    · rcases after_writer marked with ⟨rfl, _⟩ | ⟨old, _⟩
      · exact Relation.ReflTransGen.refl
      · -- the new writer comes after the nearest writer above it
        obtain ⟨nearest, closest, under, _, found, encloses⟩ := Table.exists_encloses leads old
        have direct : (order.add task).before closest task.name :=
          add_before (.inr ⟨inner, accessed, .inl encloses⟩)
        exact (kept.reaches_add fresh
          (kept.nested outer nearest writer closest under old found)).tail direct
    · have apart : ∀ written ∈ task.writes, ¬ written <+: outer :=
        fun written listed above => apart' written listed (above.trans leads)
      have old : (order.table outer).writer = some writer := (after_apart apart).symm.trans marked
      exact kept.reaches_add fresh (kept.nested outer inner writer writer' leads old old')
  case writes =>
    intro place name marked
    rcases after_writer marked with ⟨rfl, accessed⟩ | ⟨old, _⟩
    · exact ⟨task, by simp, rfl, accessed⟩
    · obtain ⟨other, listed, found⟩ := kept.writes place name old
      exact ⟨other, List.mem_append_left _ listed, found⟩
  case reads =>
    intro place name marked
    by_cases apart : ∀ written ∈ task.writes, ¬ written <+: place
    · change name ∈ (after order.table task place).readers at marked
      rw [after, Table.foldl_write_apart apart, Table.mem_readers_foldl_read] at marked
      rcases marked with old | ⟨rfl, accessed⟩
      · obtain ⟨other, listed, found⟩ := kept.reads place name old
        exact ⟨other, List.mem_append_left _ listed, found⟩
      · exact ⟨task, by simp, rfl, accessed⟩
    · push Not at apart
      change name ∈ (after order.table task place).readers at marked
      rw [after, (Table.foldl_write_below _ _ apart).1] at marked
      exact absurd marked List.not_mem_nil

/-! ## Runs -/

/-- Add tasks in order. -/
def addAll (tasks : List (Task κ τ)) : Precedence κ τ := tasks.foldl add start

/-- Adding one task more. -/
theorem addAll_append (tasks : List (Task κ τ)) (task : Task κ τ) :
    addAll (tasks ++ [task]) = (addAll tasks).add task := by
  rw [addAll, List.foldl_append]
  rfl

omit [DecidableEq κ] [DecidableEq τ] in
/-- The names of tasks that end with one are distinct. -/
theorem nodup_names_append :
    ((tasks ++ [task]).map Task.name).Nodup ↔
      (tasks.map Task.name).Nodup ∧ task.name ∉ tasks.map Task.name := by
  rw [List.map_append, List.nodup_append]
  simp only [List.map_cons, List.map_nil, List.nodup_cons, List.not_mem_nil, not_false_eq_true,
    List.nodup_nil, and_self, true_and, List.mem_singleton, forall_eq]
  exact and_congr_right fun _ => ⟨fun apart listed => apart _ listed rfl,
    fun fresh name listed same => fresh (same ▸ listed)⟩

/-- What is kept of all tasks. -/
theorem keeps_addAll (distinct : (tasks.map Task.name).Nodup) : (addAll tasks).Keeps tasks := by
  induction tasks using List.reverseRecOn with
  | nil => exact keeps_start
  | append_singleton tasks task ih =>
    rw [nodup_names_append] at distinct
    rw [addAll_append]
    exact (ih distinct.1).add distinct.2

/-- Of two tasks that conflict, the one added first comes before the other. -/
theorem reaches_of_conflicts (distinct : (tasks.map Task.name).Nodup) :
    tasks.Pairwise fun earlier later => earlier.Conflicts later →
      (addAll tasks).Reaches earlier.name later.name := by
  induction tasks using List.reverseRecOn with
  | nil => exact List.Pairwise.nil
  | append_singleton tasks task ih =>
    rw [nodup_names_append] at distinct
    have kept := keeps_addAll distinct.1
    rw [addAll_append, List.pairwise_append]
    refine ⟨(ih distinct.1).imp fun ordered conflicts =>
      kept.reaches_add distinct.2 (ordered conflicts), List.pairwise_singleton _ _, ?_⟩
    intro earlier listed later added conflicts
    obtain rfl := List.mem_singleton.mp added
    exact kept.reaches_of_conflicts distinct.2 listed conflicts

/-- A task comes directly before another one only when it was added first and they conflict. -/
theorem conflicts_of_before (distinct : (tasks.map Task.name).Nodup) {earlier later : τ}
    (direct : (addAll tasks).before earlier later) :
    ∃ first second : Task κ τ, [first, second].Sublist tasks ∧ first.name = earlier ∧
      second.name = later ∧ first.Conflicts second := by
  induction tasks using List.reverseRecOn with
  | nil => exact direct.elim
  | append_singleton tasks task ih =>
    rw [nodup_names_append] at distinct
    rw [addAll_append] at direct
    change if later = task.name then _ else _ at direct
    by_cases same : later = task.name
    · rw [if_pos same] at direct
      obtain ⟨other, listed, named, conflicts⟩ :=
        (keeps_addAll distinct.1).conflict_of_finds direct
      refine ⟨other, task, ?_, named, same.symm, conflicts⟩
      exact (List.singleton_sublist.mpr listed).append (List.Sublist.refl [task])
    · rw [if_neg same] at direct
      obtain ⟨first, second, ordered, found⟩ := ih distinct.1 direct
      exact ⟨first, second, ordered.trans (List.sublist_append_left _ _), found⟩

end Precedence

end Lib.Accesses
