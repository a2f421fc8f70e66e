import Mathlib.Data.List.Nodup

/-! Bookkeeping of operations that are submitted, opened and settled once. -/

/-- An operation that was opened: its ticket and what it was opened with. -/
structure Ledger.Entry (Data : Type) where
  ticket : Nat
  data : Data

/-- Tickets below `fresh` have been issued. Queued tickets wait to be opened, stored
entries wait to be settled, and `opened` and `settled` only grow. -/
structure Ledger (Data Cause : Type) where
  fresh : Nat
  queued : List Nat
  stored : List (Ledger.Entry Data)
  opened : List (Ledger.Entry Data)
  settled : List (Nat × Cause)

namespace Ledger

variable {Data Cause : Type} {Legit : Data → Cause → Prop}

def empty : Ledger Data Cause := ⟨0, [], [], [], []⟩

def settledTickets (ledger : Ledger Data Cause) : List Nat := ledger.settled.map Prod.fst

def openedTickets (ledger : Ledger Data Cause) : List Nat := ledger.opened.map Entry.ticket

/-- The opened entries that are not settled, in the order they were opened. -/
def unsettled (ledger : Ledger Data Cause) : List (Entry Data) :=
  ledger.opened.filter (fun entry => !ledger.settledTickets.contains entry.ticket)

/-- What can happen to a ledger. -/
inductive Step (Legit : Data → Cause → Prop) : Ledger Data Cause → Ledger Data Cause → Prop where
  | wait (ledger : Ledger Data Cause) (fresh : Nat) (grown : ledger.fresh ≤ fresh) :
      Step Legit ledger { ledger with fresh := fresh }
  | submit (ledger : Ledger Data Cause) :
      Step Legit ledger
        { ledger with queued := ledger.queued ++ [ledger.fresh], fresh := ledger.fresh + 1 }
  | open (ledger : Ledger Data Cause) (ticket : Nat) (rest : List Nat) (data : Data)
      (head : ledger.queued = ticket :: rest) :
      Step Legit ledger
        { ledger with
          queued := rest
          stored := ledger.stored ++ [⟨ticket, data⟩]
          opened := ledger.opened ++ [⟨ticket, data⟩] }
  | settle (ledger : Ledger Data Cause) (due : Entry Data → Bool) (cause : Entry Data → Cause)
      (legit : ∀ entry ∈ ledger.stored, due entry = true → Legit entry.data (cause entry)) :
      Step Legit ledger
        { ledger with
          stored := ledger.stored.filter (fun entry => !due entry)
          settled := ledger.settled ++
            (ledger.stored.filter due).map (fun entry => (entry.ticket, cause entry)) }

/-- Every opened entry is stored or settled once for a legitimate cause. -/
structure Balanced (Legit : Data → Cause → Prop) (ledger : Ledger Data Cause) : Prop where
  stored : ledger.stored = ledger.unsettled
  distinct : (ledger.openedTickets ++ ledger.queued).Nodup
  issued : ∀ ticket ∈ ledger.openedTickets ++ ledger.queued, ticket < ledger.fresh
  once : ledger.settledTickets.Nodup
  legit : ∀ record ∈ ledger.settled, ∃ entry ∈ ledger.opened,
    entry.ticket = record.1 ∧ Legit entry.data record.2

theorem balanced_empty : Balanced Legit (empty : Ledger Data Cause) where
  stored := rfl
  distinct := List.nodup_nil
  issued := by simp [empty, openedTickets]
  once := List.nodup_nil
  legit := by simp [empty]

namespace Balanced

variable {ledger next : Ledger Data Cause}

theorem opened_nodup (balanced : Balanced Legit ledger) : ledger.openedTickets.Nodup :=
  (List.nodup_append.mp balanced.distinct).1

theorem settled_opened (balanced : Balanced Legit ledger) {ticket : Nat}
    (settled : ticket ∈ ledger.settledTickets) : ticket ∈ ledger.openedTickets := by
  obtain ⟨record, member, rfl⟩ := List.mem_map.mp settled
  obtain ⟨entry, opened, same, _⟩ := balanced.legit record member
  exact List.mem_map.mpr ⟨entry, opened, same⟩

theorem mem_stored (balanced : Balanced Legit ledger) {entry : Entry Data} :
    entry ∈ ledger.stored ↔ entry ∈ ledger.opened ∧ entry.ticket ∉ ledger.settledTickets := by
  rw [balanced.stored]
  simp [unsettled]

theorem stored_tickets_nodup (balanced : Balanced Legit ledger) :
    (ledger.stored.map Entry.ticket).Nodup := by
  rw [balanced.stored]
  exact balanced.opened_nodup.sublist (List.filter_sublist.map _)

/-- An entry is determined by its ticket. -/
theorem entry_unique (balanced : Balanced Legit ledger) {left right : Entry Data}
    (first : left ∈ ledger.opened) (second : right ∈ ledger.opened)
    (same : left.ticket = right.ticket) : left = right :=
  List.inj_on_of_nodup_map balanced.opened_nodup first second same

private theorem wait (balanced : Balanced Legit ledger) {fresh : Nat}
    (grown : ledger.fresh ≤ fresh) : Balanced Legit { ledger with fresh := fresh } where
  stored := balanced.stored
  distinct := balanced.distinct
  issued ticket member := Nat.lt_of_lt_of_le (balanced.issued ticket member) grown
  once := balanced.once
  legit := balanced.legit

private theorem submit (balanced : Balanced Legit ledger) :
    Balanced Legit
      { ledger with queued := ledger.queued ++ [ledger.fresh], fresh := ledger.fresh + 1 } where
  stored := balanced.stored
  distinct := by
    show (ledger.openedTickets ++ (ledger.queued ++ [ledger.fresh])).Nodup
    rw [← List.append_assoc, List.nodup_append]
    refine ⟨balanced.distinct, List.nodup_singleton _, ?_⟩
    intro ticket member other single
    rw [List.mem_singleton] at single
    exact single ▸ Nat.ne_of_lt (balanced.issued ticket member)
  issued := by
    intro ticket member
    show ticket < ledger.fresh + 1
    have split : ticket ∈ ledger.openedTickets ++ ledger.queued ∨ ticket = ledger.fresh := by
      simpa [openedTickets, or_assoc] using member
    rcases split with earlier | new
    · exact Nat.lt_succ_of_lt (balanced.issued ticket earlier)
    · omega
  once := balanced.once
  legit := balanced.legit

private theorem openHead (balanced : Balanced Legit ledger) {ticket : Nat} {rest : List Nat}
    {data : Data} (head : ledger.queued = ticket :: rest) :
    Balanced Legit
      { ledger with
        queued := rest
        stored := ledger.stored ++ [⟨ticket, data⟩]
        opened := ledger.opened ++ [⟨ticket, data⟩] } := by
  have regrouped : (ledger.openedTickets ++ [ticket]) ++ rest =
      ledger.openedTickets ++ ledger.queued := by
    simp [head]
  have unopened : ticket ∉ ledger.openedTickets := by
    intro opened
    have distinct := balanced.distinct
    rw [head, List.nodup_append] at distinct
    exact distinct.2.2 ticket opened ticket (by simp) rfl
  have unsettledTicket : ticket ∉ ledger.settledTickets :=
    fun settled => unopened (balanced.settled_opened settled)
  constructor
  · show ledger.stored ++ [_] = (ledger.opened ++ [_]).filter
      (fun entry => !ledger.settledTickets.contains entry.ticket)
    rw [List.filter_append, balanced.stored]
    congr 1
    have kept : (!ledger.settledTickets.contains ticket) = true := by simpa using unsettledTicket
    exact (List.filter_eq_self.mpr (by simpa using kept)).symm
  · show ((ledger.opened ++ [_]).map Entry.ticket ++ rest).Nodup
    rw [List.map_append]
    exact regrouped ▸ balanced.distinct
  · intro other member
    apply balanced.issued other
    rw [← regrouped]
    simpa [openedTickets] using member
  · exact balanced.once
  · intro record member
    obtain ⟨entry, opened, same⟩ := balanced.legit record member
    exact ⟨entry, List.mem_append_left _ opened, same⟩

private theorem settle (balanced : Balanced Legit ledger) {due : Entry Data → Bool}
    {cause : Entry Data → Cause}
    (legit : ∀ entry ∈ ledger.stored, due entry = true → Legit entry.data (cause entry)) :
    Balanced Legit
      { ledger with
        stored := ledger.stored.filter (fun entry => !due entry)
        settled := ledger.settled ++
          (ledger.stored.filter due).map (fun entry => (entry.ticket, cause entry)) } := by
  have tickets : ((ledger.stored.filter due).map (fun entry => (entry.ticket, cause entry))).map
      Prod.fst = (ledger.stored.filter due).map Entry.ticket := by
    simp [List.map_map, Function.comp_def]
  have dueTickets : ∀ entry ∈ ledger.opened, entry.ticket ∉ ledger.settledTickets →
      (entry.ticket ∈ (ledger.stored.filter due).map Entry.ticket ↔ due entry = true) := by
    intro entry opened unsettled
    constructor
    · intro member
      obtain ⟨other, filtered, same⟩ := List.mem_map.mp member
      obtain ⟨stored, isDue⟩ := List.mem_filter.mp filtered
      have identical := balanced.entry_unique (balanced.mem_stored.mp stored).1 opened same
      exact identical ▸ isDue
    · intro isDue
      exact List.mem_map.mpr
        ⟨entry, List.mem_filter.mpr ⟨balanced.mem_stored.mpr ⟨opened, unsettled⟩, isDue⟩, rfl⟩
  constructor
  · simp only [unsettled, settledTickets, List.map_append, tickets]
    conv_lhs => rw [balanced.stored]
    simp only [unsettled, List.filter_filter]
    apply List.filter_congr
    intro entry opened
    by_cases settled : entry.ticket ∈ ledger.settledTickets
    · have earlier : entry.ticket ∈ ledger.settled.map Prod.fst := settled
      simp only [List.contains_append, List.contains_iff_mem.mpr earlier,
        List.contains_iff_mem.mpr settled, Bool.true_or, Bool.not_true, Bool.and_false]
    · have earlier : entry.ticket ∉ ledger.settled.map Prod.fst := settled
      have decided := dueTickets entry opened settled
      rw [Bool.eq_iff_iff]
      simp only [Bool.and_eq_true, Bool.not_eq_true', Bool.eq_false_iff, ne_eq,
        List.contains_iff_mem, List.mem_append, decided, settled, earlier, not_false_eq_true,
        and_true, false_or]
  · exact balanced.distinct
  · exact balanced.issued
  · simp only [settledTickets, List.map_append, tickets]
    rw [List.nodup_append]
    refine ⟨balanced.once, balanced.stored_tickets_nodup.sublist (List.filter_sublist.map _), ?_⟩
    intro ticket settled other member same
    subst same
    obtain ⟨entry, filtered, rfl⟩ := List.mem_map.mp member
    exact (balanced.mem_stored.mp (List.mem_filter.mp filtered).1).2 settled
  · intro record member
    rcases List.mem_append.mp member with earlier | new
    · exact balanced.legit record earlier
    · obtain ⟨entry, filtered, rfl⟩ := List.mem_map.mp new
      obtain ⟨stored, isDue⟩ := List.mem_filter.mp filtered
      exact ⟨entry, (balanced.mem_stored.mp stored).1, rfl, legit entry stored isDue⟩

/-- No step loses, forges or settles an entry twice. -/
theorem step (balanced : Balanced Legit ledger) (stepped : Step Legit ledger next) :
    Balanced Legit next := by
  cases stepped with
  | wait fresh grown => exact balanced.wait grown
  | submit => exact balanced.submit
  | «open» ticket rest data head => exact balanced.openHead head
  | settle due cause legit => exact balanced.settle legit

private theorem filter_ticket {records : List (Nat × Cause)} {record : Nat × Cause}
    (once : (records.map Prod.fst).Nodup) (member : record ∈ records) :
    records.filter (fun other => other.1 == record.1) = [record] := by
  induction records with
  | nil => cases member
  | cons first rest ih =>
    rw [List.map_cons, List.nodup_cons] at once
    rcases List.mem_cons.mp member with rfl | later
    · have absent : rest.filter (fun other => other.1 == record.1) = [] := by
        rw [List.filter_eq_nil_iff]
        intro other present same
        exact once.1 (beq_iff_eq.mp same ▸ List.mem_map_of_mem present)
      simp [absent]
    · have different : (first.1 == record.1) = false := by
        rw [beq_eq_false_iff_ne]
        exact fun same => once.1 (same ▸ List.mem_map_of_mem later)
      simp [different, ih once.2 later]

/-- An opened entry is either stored and never settled, or gone and settled exactly
once, for a cause legitimate for it. -/
theorem exactly_once (balanced : Balanced Legit ledger) {entry : Entry Data}
    (opened : entry ∈ ledger.opened) :
    (entry ∈ ledger.stored ∧
      ledger.settled.filter (fun record => record.1 == entry.ticket) = []) ∨
    (entry ∉ ledger.stored ∧ ∃ cause,
      ledger.settled.filter (fun record => record.1 == entry.ticket) = [(entry.ticket, cause)] ∧
      Legit entry.data cause) := by
  by_cases settled : entry.ticket ∈ ledger.settledTickets
  · right
    obtain ⟨⟨ticket, cause⟩, member, same⟩ := List.mem_map.mp settled
    obtain ⟨other, otherOpened, otherSame, legit⟩ := balanced.legit _ member
    have identical := balanced.entry_unique otherOpened opened (otherSame.trans same)
    subst identical
    refine ⟨fun stored => (balanced.mem_stored.mp stored).2 settled, cause, ?_, legit⟩
    simp only at same
    subst same
    exact filter_ticket balanced.once member
  · left
    refine ⟨balanced.mem_stored.mpr ⟨opened, settled⟩, ?_⟩
    rw [List.filter_eq_nil_iff]
    intro record member same
    exact settled (beq_iff_eq.mp same ▸ List.mem_map_of_mem member)

end Balanced

end Ledger
