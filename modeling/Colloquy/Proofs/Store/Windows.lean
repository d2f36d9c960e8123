import Colloquy.Proofs.Attempts
import Colloquy.Proofs.Store.Ledger
import Colloquy.Store.Interference

/-!
# Windows on a session

The database reads a history off a window: the newest rows of the session, as many as are asked for.
Behind the back of the store anything may have been written into any row. What a row tells, and what
keeps it from being read, is said column by column. A history is told exactly if all rows of the
window can be read, and otherwise its fault is that of the oldest one that cannot. The rows outside
of the window may be damaged in any way.
-/

namespace Colloquy

section Columns

variable {column : String}

private theorem numberIn?_eq_ok_iff {cell : Cell} {number : Option Int} :
    Column.numberIn? column cell = .ok number ↔
      cell ≠ .other ∧ ∀ n, number = some n ↔ cell = .integer n := by
  cases cell with
  | null =>
    simp only [Column.numberIn?, Except.ok.injEq, reduceCtorEq, iff_false, ne_eq, not_false_eq_true,
      true_and]
    rw [eq_comm, Option.eq_none_iff_forall_ne_some]
  | integer n =>
    simp only [Column.numberIn?, Except.ok.injEq, Cell.integer.injEq, ne_eq, reduceCtorEq,
      not_false_eq_true, true_and]
    rw [eq_comm, Option.ext_iff]
    simp
  | other => simp [Column.numberIn?]

private theorem numberIn?_eq_error_iff {cell : Cell} {fault : StoreFault} :
    Column.numberIn? column cell = .error fault ↔
      cell = .other ∧ fault = .query (column ++ " column") := by
  cases cell <;> simp [Column.numberIn?, eq_comm]

private theorem valueIn_eq_ok_iff {α : Type} {decoder : Decoder α} {s : String} {a : α} :
    Column.valueIn column decoder s = .ok a ↔ Json.readAs? decoder s = some a := by
  unfold Column.valueIn
  cases Json.readAs? decoder s <;> simp

private theorem valueIn_eq_error_iff {α : Type} {decoder : Decoder α} {s : String}
    {fault : StoreFault} :
    Column.valueIn column decoder s = .error fault ↔
      Json.readAs? decoder s = none ∧
        fault = .serialization (column ++ Json.depthNote decoder s) := by
  unfold Column.valueIn
  cases Json.readAs? decoder s <;> simp [eq_comm]

end Columns

namespace MessageRow

/-- What a row tells: its columns as a message. -/
structure Tells (now : Instant) (row : MessageRow) (message : Message) : Prop where
  id : message.id = row.id
  session : message.session = row.session
  /-- The role goes by its name. -/
  role : message.role.name = row.role
  content : message.content = row.content
  /-- The column of the count holds a number or nothing. -/
  countable : row.tokenCount ≠ .other
  /-- A number that is no word of 32 bits is no count. -/
  tokenCount (n : UInt32) : message.tokenCount = some n ↔ row.tokenCount = .integer n.toNat
  /-- The records are those that their text lists. -/
  toolRecords : Json.readAs? (Decoder.list ExecutionRecord.decode) row.toolRecords =
    some message.toolRecords
  createdAt : message.createdAt = Column.timeIn now row.createdAt

/-- How a row may be damaged, and the fault that it has then. Of several columns that are damaged,
that of the count comes first and that of the records last. -/
inductive Damage (row : MessageRow) : StoreFault → Prop
  /-- The count is neither a number nor nothing. -/
  | tokenCount (hcount : row.tokenCount = .other) : Damage row (.query "token_count column")
  /-- No role goes by the name. -/
  | role (hcount : row.tokenCount ≠ .other) (hrole : ∀ role : Role, role.name ≠ row.role) :
    Damage row (.serialization ("unknown role: " ++ row.role))
  /-- The text of the records is not a list of records. If all that is wrong is
  that it goes too deep, the fault says where. -/
  | toolRecords (hcount : row.tokenCount ≠ .other) (hrole : ∃ role : Role, role.name = row.role)
    (hrecords : Json.readAs? (Decoder.list ExecutionRecord.decode) row.toolRecords = none) :
    Damage row (.serialization ("tool_records" ++
      Json.depthNote (Decoder.list ExecutionRecord.decode) row.toolRecords))

variable {now : Instant} {row : MessageRow}

/-- The count of a row is its number if that is a word. -/
theorem count_eq_some_iff {number : Option Int} {n : UInt32} :
    (number.bind fun n => if 0 ≤ n && n < Word.count 32 then some n.toNat.toUInt32 else none) =
      some n ↔ number = some (n.toNat : Int) := by
  have hbound : (n.toNat : Int) < Word.count 32 := by
    have hword := n.toNat_lt
    rw [Word.count_32]
    omega
  cases number with
  | none => simp
  | some k =>
    rw [Option.bind_some, Option.some.injEq]
    split
    · next hfits =>
      rw [Bool.and_eq_true, decide_eq_true_eq, decide_eq_true_eq, Word.count_32] at hfits
      have hword : k.toNat.toUInt32.toNat = k.toNat := by
        rw [Nat.toUInt32_eq, UInt32.toNat_ofNat_of_lt' (by rw [UInt32.size]; omega)]
      rw [Option.some.injEq, ← UInt32.toNat_inj, hword]
      omega
    · next hfits =>
      refine iff_of_false nofun ?_
      rintro rfl
      exact hfits (by simpa using hbound)

/-- A row is read as the message that it tells. -/
theorem message_eq_ok_iff {message : Message} :
    row.message now = .ok message ↔ row.Tells now message := by
  unfold MessageRow.message
  constructor
  · intro h
    obtain ⟨count, hcount, h⟩ := bind_eq_ok_iff.mp h
    obtain ⟨role, hrole, h⟩ := bind_eq_ok_iff.mp h
    obtain ⟨records, hrecords, h⟩ := bind_eq_ok_iff.mp h
    obtain ⟨hcountable, hnumber⟩ := numberIn?_eq_ok_iff.mp hcount
    cases h
    exact ⟨rfl, rfl, Role.ofText?_eq_ok_iff.mp (mapError_eq_ok_iff.mp hrole), rfl, hcountable,
      fun n => count_eq_some_iff.trans (hnumber _), valueIn_eq_ok_iff.mp hrecords, rfl⟩
  · intro h
    obtain ⟨count, hcount⟩ : ∃ count, Column.numberIn? "token_count" row.tokenCount = .ok count := by
      cases hread : Column.numberIn? "token_count" row.tokenCount with
      | ok count => exact ⟨count, rfl⟩
      | error fault => exact absurd (numberIn?_eq_error_iff.mp hread).1 h.countable
    have hword := Option.ext fun n => (count_eq_some_iff.trans
      ((numberIn?_eq_ok_iff.mp hcount).2 _)).trans (h.tokenCount n).symm
    refine bind_eq_ok_iff.mpr ⟨count, hcount, ?_⟩
    refine bind_eq_ok_iff.mpr ⟨message.role, ?_, ?_⟩
    · exact mapError_eq_ok_iff.mpr (Role.ofText?_eq_ok_iff.mpr h.role)
    refine bind_eq_ok_iff.mpr ⟨message.toolRecords, valueIn_eq_ok_iff.mpr h.toolRecords, ?_⟩
    dsimp only
    rw [hword, ← h.id, ← h.session, ← h.content, ← h.createdAt]
    rfl

/-- A damaged row tells nothing. -/
theorem Damage.not_tells {fault : StoreFault} {message : Message} (h : row.Damage fault) :
    ¬ row.Tells now message := by
  intro htells
  cases h with
  | tokenCount hcount => exact htells.countable hcount
  | role _ hrole => exact hrole _ htells.role
  | toolRecords _ _ hrecords => cases hrecords.symm.trans htells.toolRecords

/-- The damage of a row decides its fault. -/
theorem Damage.unique {fault fault' : StoreFault} (h : row.Damage fault) (h' : row.Damage fault') :
    fault = fault' := by
  cases h with
  | tokenCount hcount =>
    cases h' with
    | tokenCount _ => rfl
    | role hother _ => exact absurd hcount hother
    | toolRecords hother _ _ => exact absurd hcount hother
  | role hcount hrole =>
    cases h' with
    | tokenCount hother => exact absurd hother hcount
    | role _ _ => rfl
    | toolRecords _ hnamed _ =>
      obtain ⟨role, hname⟩ := hnamed
      exact absurd hname (hrole role)
  | toolRecords hcount hnamed _ =>
    cases h' with
    | tokenCount hother => exact absurd hother hcount
    | role _ hrole =>
      obtain ⟨role, hname⟩ := hnamed
      exact absurd hname (hrole role)
    | toolRecords _ _ _ => rfl

/-- A row that cannot be read is damaged. -/
theorem damage_of_message {fault : StoreFault} (h : row.message now = .error fault) :
    row.Damage fault := by
  unfold MessageRow.message at h
  obtain hcount | ⟨count, hcount, h⟩ := bind_eq_error_iff.mp h
  · obtain ⟨hother, rfl⟩ := numberIn?_eq_error_iff.mp hcount
    exact .tokenCount hother
  have hcountable := (numberIn?_eq_ok_iff.mp hcount).1
  obtain hrole | ⟨role, hrole, h⟩ := bind_eq_error_iff.mp h
  · obtain ⟨unknown, hunknown, rfl⟩ := mapError_eq_error_iff.mp hrole
    obtain ⟨hnone, rfl⟩ := Role.ofText?_eq_error_iff.mp hunknown
    exact .role hcountable hnone
  have hname := Role.ofText?_eq_ok_iff.mp (mapError_eq_ok_iff.mp hrole)
  obtain hrecords | ⟨records, -, h⟩ := bind_eq_error_iff.mp h
  · obtain ⟨hnone, rfl⟩ := valueIn_eq_error_iff.mp hrecords
    exact .toolRecords hcountable ⟨role, hname⟩ hnone
  · cases h

theorem message_eq_error_iff {fault : StoreFault} :
    row.message now = .error fault ↔ row.Damage fault := by
  refine ⟨damage_of_message, fun h => ?_⟩
  cases hread : row.message now with
  | ok message => exact absurd (message_eq_ok_iff.mp hread) h.not_tells
  | error found => rw [(damage_of_message hread).unique h]

/-- A row that has no fault tells a message. -/
theorem exists_tells_iff : (∃ message, row.Tells now message) ↔ ∀ fault, ¬ row.Damage fault := by
  simp only [← message_eq_ok_iff, ← @message_eq_error_iff now row]
  cases row.message now <;> simp

end MessageRow

namespace Database

/-- The newest messages of a session, the oldest of them first. -/
def window (session : SessionId) (limit : Nat) (db : Database) : List MessageRow :=
  lastOf limit (db.messages.filter (·.session == session))

/-- Something that is written into a column of a message. -/
structure Tampering where
  /-- The number of the message. -/
  number : Nat
  /-- The column. -/
  column : String
  /-- What is written. -/
  value : Json

namespace Tampering

/-- The database behind it. -/
def apply (db : Database) (tampering : Tampering) : Database :=
  (db.overwriteMessage tampering.number tampering.column tampering.value).2

/-- The message stays out of the window: it is one of another session before and after, or there are
as many newer ones as the window has room for. -/
def Spares (session : SessionId) (limit : Nat) (db : Database) (tampering : Tampering) : Prop :=
  ∀ older row newer, db.messages = older ++ row :: newer → tampering.number = older.length + 1 →
    (row.session ≠ session ∧
      (row.overwrite tampering.column tampering.value).session ≠ session) ∨
      limit ≤ (newer.filter (·.session == session)).length

/-- Nothing is hit, or the row of the number is another one. -/
private theorem apply_cases (db : Database) (tampering : Tampering) :
    tampering.apply db = db ∨
      ∃ older row newer, db.messages = older ++ row :: newer ∧
        tampering.number = older.length + 1 ∧
        tampering.apply db = { db with
          messages := older ++ row.overwrite tampering.column tampering.value :: newer } := by
  obtain ⟨number, column, value⟩ := tampering
  unfold apply overwriteMessage
  dsimp only
  split
  · next hnumber =>
    rw [Bool.and_eq_true, decide_eq_true_eq, decide_eq_true_eq] at hnumber
    obtain ⟨older, row, newer, hmessages, hlength, hmodify⟩ :=
      List.exists_of_modify (·.overwrite column value) (l := db.messages) (i := number - 1) (by omega)
    exact .inr ⟨older, row, newer, hmessages, by omega, by rw [← hmodify]⟩
  · exact .inl rfl

/-- A message that stays out of the window leaves it as it is. -/
theorem Spares.window_apply {session : SessionId} {limit : Nat} {db : Database}
    {tampering : Tampering} (h : tampering.Spares session limit db) :
    (tampering.apply db).window session limit = db.window session limit := by
  obtain happly | ⟨older, row, newer, hmessages, hnumber, happly⟩ := tampering.apply_cases db
  · rw [happly]
  rw [happly, window, window, hmessages]
  obtain ⟨hrow, hoverwritten⟩ | hlimit := h older row newer hmessages hnumber
  · have hbefore : (row.session == session) = false := by simpa using hrow
    have hbehind : ((row.overwrite tampering.column tampering.value).session == session) = false := by
      simpa using hoverwritten
    simp only [List.filter_append, List.filter_cons, hbefore, hbehind, Bool.false_eq_true, if_false]
  · have hwindow : ∀ row', lastOf limit ((older ++ row' :: newer).filter (·.session == session)) =
        lastOf limit (newer.filter (·.session == session)) := by
      intro row'
      rw [List.append_cons, List.filter_append, lastOf_append_of_le _ hlimit]
    rw [hwindow, hwindow]

end Tampering

/-- The database behind some tamperings. -/
def tampered (db : Database) (tamperings : List Tampering) : Database :=
  tamperings.foldl Tampering.apply db

/-- Each of some tamperings, when its turn comes, spares the window. -/
def SpareWindow (session : SessionId) (limit : Nat) : Database → List Tampering → Prop
  | _, [] => True
  | db, tampering :: rest =>
    tampering.Spares session limit db ∧ SpareWindow session limit (tampering.apply db) rest

/-- Messages can be asked for, and either their limit is a number that a column holds or all of the
messages have such numbers anyway. -/
structure HasWindow (limit : Nat) (db : Database) : Prop where
  hasMessages : db.hasMessages = true
  limit_le : limit ≤ Column.maxNumber ∨ db.messages.length ≤ Column.maxNumber

variable {db : Database} {session : SessionId} {limit : Nat}

/-- A history is read row by row. -/
theorem HasWindow.recentHistory_eq (h : db.HasWindow limit) (now : Instant) (session : SessionId) :
    SessionStore.recentHistory now session limit db =
      (db.window session limit).mapM (MessageRow.message now) := by
  have hwindow : lastOf (min limit Column.maxNumber) (db.messages.filter (·.session == session)) =
      db.window session limit := by
    obtain hlimit | hlength := h.limit_le
    · rw [Nat.min_eq_left hlimit, window]
    · exact lastOf_min (Nat.le_trans (List.length_filter_le ..) hlength)
  simp only [SessionStore.recentHistory, if_pos h.hasMessages, hwindow]

/-- Whatever is written into messages, they can be asked for as before. -/
theorem HasWindow.apply (h : db.HasWindow limit) (tampering : Tampering) :
    (tampering.apply db).HasWindow limit := by
  obtain happly | ⟨older, row, newer, hmessages, -, happly⟩ := tampering.apply_cases db
  · rwa [happly]
  · rw [happly]
    refine ⟨h.hasMessages, h.limit_le.imp_right fun hlength => ?_⟩
    rw [hmessages] at hlength
    simpa using hlength

/-- Tamperings that spare the window leave it as it is. -/
theorem window_tampered (h : db.HasWindow limit) {tamperings : List Tampering}
    (hspare : SpareWindow session limit db tamperings) :
    (db.tampered tamperings).HasWindow limit ∧
      (db.tampered tamperings).window session limit = db.window session limit := by
  induction tamperings generalizing db with
  | nil => exact ⟨h, rfl⟩
  | cons tampering rest ih =>
    obtain ⟨hwindow, hsame⟩ := ih (h.apply tampering) hspare.2
    exact ⟨hwindow, hsame.trans hspare.1.window_apply⟩

/-- A visit with a damaged row in front of its only good one, and a damaged row of another visit
between them. -/
private def damaged : Database :=
  { fresh with messages :=
      [⟨"m0", "visit", "robot", "Beep.", .null, "[]", ""⟩,
        ⟨"m1", "other", "user", "Hm.", .null, "?", ""⟩,
        ⟨"m2", "visit", "user", "Hi", .integer 2, "[]", ""⟩] }

end Database

end Colloquy
