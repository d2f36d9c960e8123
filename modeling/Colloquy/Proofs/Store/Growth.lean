import Colloquy.Proofs.Store.LoggedRecords
import Colloquy.Proofs.Store.Pages

/-!
# Stores that grow by a page

A store with a log that serves takes all it is given, and what it takes for a session and what it
takes for the log go to places that have nothing to do with each other. So one can say of a store
what has become of it since an earlier time: one page is there that was blank, with its card and its
drafts, and the log goes on with some records.
-/

namespace Colloquy

/-- A log that goes with a store of pages and takes every record as its next entry. -/
class PagedLog (σ : Type) [SessionStore σ] [ExecutionLog σ] [ImpartialStore σ]
    [PagedStore σ] where
  /-- What is kept of a record. -/
  Entry : Type
  /-- Keeps a record. -/
  enter : ExecutionRecord → Entry
  /-- What the log has taken. -/
  entries : σ → List Entry
  /-- Whether a store serves together with its log. -/
  Logs : σ → Prop
  /-- A store that serves with its log serves. -/
  serves {s : σ} (hlogs : Logs s) : PagedStore.Serves s
  /-- A record comes last in the log and is on no page. -/
  written (record : ExecutionRecord) {s : σ} (hlogs : Logs s) :
    ∃ s', ExecutionLog.write record s = (.ok (), s') ∧ Logs s' ∧
      entries s' = entries s ++ [enter record] ∧
      ∀ session, PagedStore.card? session s' = PagedStore.card? session s ∧
        PagedStore.kept session s' = PagedStore.kept session s
  /-- Whatever the store is asked for is not in the log. -/
  asked (step : StoreStep) {s : σ} (hlogs : Logs s) (hserves : PagedStore.Serves (step.run s).2) :
    Logs (step.run s).2 ∧ entries (step.run s).2 = entries s

instance : PagedLog Database where
  Entry := ExecutionRow
  enter := ExecutionRow.ofRecord
  entries db := db.executions
  Logs db := db.AcceptsLike .fresh
  serves hlogs := Database.appendFault?_of_accepts hlogs
  written record _ hlogs :=
    ⟨_, Database.write_eq hlogs record, ⟨hlogs.schema, hlogs.isOpen, hlogs.updatesBlocked⟩, rfl,
      fun _ => ⟨rfl, rfl⟩⟩
  asked step db hlogs _ :=
    ⟨Database.accepts_apply hlogs (.ask step), Database.executions_run step db⟩

/-- A log in memory goes with any store of pages. -/
instance {σ : Type} [SessionStore σ] [ImpartialStore σ] [PagedStore σ] :
    PagedLog (σ × MemoryLog) where
  Entry := ExecutionRecord
  enter record := record
  entries pair := pair.2.records
  Logs pair := PagedStore.Serves pair.1
  serves hlogs := hlogs
  written record pair hlogs := ⟨_, rfl, hlogs, rfl, fun _ => ⟨rfl, rfl⟩⟩
  asked step pair _ hserves := by
    refine ⟨hserves, ?_⟩
    obtain ⟨stamp, call⟩ := step
    cases call <;> rfl

namespace PagedStore

open PagedLog

variable {σ : Type} [SessionStore σ] [ExecutionLog σ] [ImpartialStore σ] [PagedStore σ]
  [PagedLog σ]

/-- A store that serves is as it was at the start, but for a page that was blank and what the log
took meanwhile. -/
structure Grown (start : σ) (card : SessionCard) (drafts : List Draft)
    (records : List ExecutionRecord) (s : σ) : Prop where
  /-- The store serves. -/
  logs : Logs s
  /-- The page has a card, and the other cards are as they were. -/
  card? : ∀ session, PagedStore.card? session s =
    if session = card.id then some card else PagedStore.card? session start
  /-- The page has some drafts, and the other pages have what they had. -/
  kept : ∀ session, PagedStore.kept session s =
    if session = card.id then drafts.map keep else PagedStore.kept session start
  /-- The log goes on with some records. -/
  entries : PagedLog.entries s = PagedLog.entries start ++ records.map enter

/-- A session that is opened on a blank page has no drafts yet. -/
theorem exists_grown_opened {start : σ} (hlogs : Logs start) {stamp : Stamp}
    (hcard : PagedStore.card? stamp.name start = none)
    (hkept : PagedStore.kept stamp.name start = []) (agentId : String) (title : Option String) :
    ∃ s, SessionStore.openSession stamp agentId title start = (.ok stamp.name, s) ∧
      Grown start ⟨stamp.name, agentId, title⟩ [] [] s := by
  obtain ⟨s, hopen, hserves, hcards, hpages⟩ :=
    opened stamp agentId title (serves hlogs) hcard hkept
  have hrun : (StoreStep.run ⟨stamp, .openSession agentId title⟩ start).2 = s :=
    congrArg Prod.snd hopen
  obtain ⟨hlogs', hentries⟩ := asked ⟨stamp, .openSession agentId title⟩ hlogs (hrun ▸ hserves)
  rw [hrun] at hlogs' hentries
  refine ⟨s, hopen, hlogs', hcards, fun session => ?_, hentries.trans (List.append_nil _).symm⟩
  rw [hpages]
  split
  · next hsame => rw [hsame, hkept]; rfl
  · rfl

namespace Grown

variable {start s : σ} {card : SessionCard} {drafts : List Draft} {records : List ExecutionRecord}
  (h : Grown start card drafts records s)

include h

/-- A draft that is appended comes last on the page. -/
theorem exists_appended {stamp : Stamp} (hnew : ImpartialStore.NewMessage stamp.name s)
    (draft : Draft) :
    ∃ s', SessionStore.append stamp card.id draft s = (.ok stamp.name, s') ∧
      Grown start card (drafts ++ [draft]) records s' := by
  obtain ⟨s', happend, hserves, hcards, hpages⟩ := appended stamp card.id draft (serves h.logs) hnew
  have hrun : (StoreStep.run ⟨stamp, .append card.id draft⟩ s).2 = s' := congrArg Prod.snd happend
  obtain ⟨hlogs', hentries⟩ := asked ⟨stamp, .append card.id draft⟩ h.logs (hrun ▸ hserves)
  rw [hrun] at hlogs' hentries
  refine ⟨s', happend, hlogs', fun session => ?_, fun session => ?_, hentries.trans h.entries⟩
  · rw [hcards, h.card?, if_pos rfl, Option.getD_some, h.card?]
    split <;> rfl
  · rw [hpages, h.kept]
    split
    · rw [List.map_append, List.map_singleton]
    · exact List.append_nil _

/-- A record that is written comes last in the log. -/
theorem exists_written (record : ExecutionRecord) :
    ∃ s', ExecutionLog.write record s = (.ok (), s') ∧
      Grown start card drafts (records ++ [record]) s' := by
  obtain ⟨s', hwrite, hlogs', hentries, hpages⟩ := written record h.logs
  refine ⟨s', hwrite, hlogs', fun session => ?_, fun session => ?_, ?_⟩
  · rw [(hpages session).1, h.card?]
  · rw [(hpages session).2, h.kept]
  · rw [hentries, h.entries, List.append_assoc, List.map_append, List.map_singleton]

end Grown

end PagedStore

end Colloquy
