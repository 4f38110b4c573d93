import MemberStubs.Proofs.Document.ApplyRecord
import MemberStubs.Proofs.Document.Plan
import MemberStubs.Proofs.Document.Snapshot

/-! Whole documents are read back. What is read from a text and written again may be spelled in
another way than it was, but only once. -/

namespace MemberStubs

namespace Json

/-- The text that a value read from a text is written as. -/
def rewrite? (read : Json → Option α) (write : α → Json) (text : String) : Option String :=
  (decode? read text).map fun value => (write value).print

/-- A value is read from what it is written as. Any text that it is read from, once rewritten, stays
the same. -/
structure ReadsBack (read : Json → Option α) (write : α → Json) (value : α) : Prop where
  again : decode? read (write value).print = some value
  settles : ∀ text, decode? read text = some value →
    ∃ rewritten, rewrite? read write text = some rewritten ∧
      rewrite? read write rewritten = some rewritten

theorem readsBack_of_again {read : Json → Option α} {write : α → Json} {value : α}
    (again : decode? read (write value).print = some value) : ReadsBack read write value where
  again := again
  settles text first := by
    refine ⟨(write value).print, ?_, ?_⟩
    · rw [rewrite?, first, Option.map_some]
    · rw [rewrite?, again, Option.map_some]

theorem RoundTrips.readsBack {read : Json → Option α} {write : α → Json}
    (trips : RoundTrips read write) (value : α) : ReadsBack read write value :=
  readsBack_of_again (trips.decode?_print value)

end Json

open Json (ReadsBack maxHeight)

theorem ApplyRecord.readsBack {record : ApplyRecord} (isRead : record.EndIsRead) :
    ReadsBack ofJson? toJson record := by
  apply Json.readsBack_of_again
  rw [Json.decode?, record.written.parse?_print, Option.bind_some, ofJson?_toJson isRead]

/-- Every document is read back, whatever its strings, its numbers and its lists are and whatever it
leaves out. -/
theorem documents_readBack :
    (∀ member, ReadsBack (Member.ofJson? maxHeight) Member.toJson member) ∧
    (∀ snapshot, ReadsBack (Snapshot.ofJson? maxHeight) Snapshot.toJson snapshot) ∧
    (∀ report, ReadsBack DiagnosticReport.ofJson? DiagnosticReport.toJson report) ∧
    (∀ edits, ReadsBack EditSet.ofJson? EditSet.toJson edits) ∧
    (∀ plan, ReadsBack RepairPlan.ofJson? RepairPlan.toJson plan) ∧
    (∀ layout, ReadsBack Layout.ofJson? Layout.toJson layout) ∧
    ∀ record : ApplyRecord, record.EndIsRead →
      ReadsBack ApplyRecord.ofJson? ApplyRecord.toJson record :=
  ⟨(Member.roundTrips (by decide)).readsBack, (Snapshot.roundTrips (by decide)).readsBack,
    DiagnosticReport.roundTrips.readsBack, EditSet.roundTrips.readsBack,
    RepairPlan.roundTrips.readsBack, Layout.roundTrips.readsBack,
    fun _ => ApplyRecord.readsBack⟩

/-! A record with a path that has to be escaped, with parts that are left out, and with a moment on a
leap day. -/

def endedRecord : ApplyRecord :=
  { tool := ⟨"absfix", none⟩
    preconditions := { verified := true }
    results := [
      { path := "src\\Größe \"a\".ts", status := .blocked, message := some "hash\tmismatch"
        classes := 2, stubsInserted := 0 }]
    summary := { attempted := 1, blocked := 1 }
    endedAt := some ⟨19782, 3723, 120000000⟩ }

theorem readsBack_endedRecord :
    endedRecord.EndIsRead ∧ ReadsBack ApplyRecord.ofJson? ApplyRecord.toJson endedRecord := by
  have isRead : endedRecord.EndIsRead := by
    rintro time ⟨⟩
    decide +kernel
  rcases documents_readBack with ⟨_, _, _, _, _, _, records⟩
  exact ⟨isRead, records endedRecord isRead⟩

end MemberStubs
