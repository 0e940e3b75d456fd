import PinKeeper.Proofs.Json.Record
import PinKeeper.Proofs.Time.Instant
import PinKeeper.Upload

/-!
# Proofs/Upload/Manifest — a manifest reads back as the result it was written from

A manifest is written one item a line, and the reader of such texts gives the written value
(`Json.parse?_pretty`).  What is left is that the record is taken back field by field: an absent
note is a missing member, an absent text or count is null, an outcome is its exit code, and the time
is its text.  So nothing is lost (`ofText?_text`), whatever the texts hold, as long as sizes and
counts have the width that the reader accepts and the year has four digits (`InRange`).
-/

namespace PinKeeper

open Json

/-! ## Entries -/

namespace CidEntry

variable {e : CidEntry}

theorem legible_toJson (h : e.size ≤ Text.max64) : e.toJson.Legible := by
  refine .object ?_
  simp only [List.forall_mem_cons]
  exact ⟨.text _, .text _, legible_count h, .bool _, legible_optionalText _, List.forall_mem_nil _⟩

theorem ofJson?_toJson (h : e.size ≤ Text.max64) : ofJson? e.toJson = some e := by
  have hslots : slots [["path"], ["cid"], ["size"], ["is_root"], ["error"]] e.toJson
      = some [some (.text e.path), some (.text e.cid), some (count e.size), some (.bool e.isRoot),
        some (optionalText e.error)] := rfl
  rw [ofJson?, hslots]
  dsimp only [Option.bind_eq_bind, Option.bind_some, required, orDefault, asText, asBool]
  rw [asNat_count h, nullable_optionalText]
  rfl

end CidEntry

/-! ## Results -/

namespace AddResult

/-- Sizes and the count have 64 bits, and the time is one of a clock, in a year of four digits. -/
structure InRange (r : AddResult) : Prop where
  sizes : ∀ e ∈ r.entries, e.size ≤ Text.max64
  count : ∀ n ∈ r.replicaCount, n ≤ Text.max64
  time : r.addedAt.valid = true
  year : r.addedAt.InFourDigits

variable {r : AddResult}

theorem legible_toJson (h : r.InRange) : r.toJson.Legible := by
  have hcode : r.outcome.exitCode ≤ Text.max64 := by
    cases r.outcome <;> decide
  refine .object ?_
  simp only [List.forall_mem_append, List.forall_mem_cons]
  refine ⟨⟨⟨.text _, .text _, ?_, legible_texts _, legible_optionalText _, .text _, .text _,
    legible_count hcode, legible_optionalText _, List.forall_mem_nil _⟩, ?_⟩, ?_,
    List.forall_mem_nil _⟩
  · exact legible_array_map fun e he => CidEntry.legible_toJson (h.sizes e he)
  · cases r.note with
    | none => exact List.forall_mem_nil _
    | some note => exact List.forall_mem_singleton.2 (.text note)
  · cases hn : r.replicaCount with
    | none => exact .null
    | some n => exact legible_count (h.count n hn)

theorem slots_toJson (r : AddResult) :
    slots [["root_cid"], ["root_path"], ["entries"], ["allocations"], ["profile"], ["added_at"],
        ["cluster_host"], ["returncode"], ["error"], ["note"], ["replica_count"]] r.toJson
      = some [some (.text r.rootCid), some (.text r.rootPath),
        some (.array (r.entries.map (·.toJson))), some (texts r.allocations),
        some (optionalText r.profile), some (.text r.addedAt.text), some (.text r.clusterHost),
        some (count r.outcome.exitCode), some (optionalText r.error), r.note.map .text,
        some (r.replicaCount.elim .null count)] := by
  obtain ⟨_, _, _, _, _, _, _, _, _, note, replicaCount⟩ := r
  cases note <;> cases replicaCount <;> rfl

theorem outcome?_exitCode (o : AddOutcome) : outcome? (count o.exitCode) = some o := by
  cases o <;> rfl

theorem ofJson?_toJson (h : r.InRange) : ofJson? r.toJson = some r := by
  have hentries : asList CidEntry.ofJson? (.array (r.entries.map (·.toJson))) = some r.entries :=
    asList_map fun e he => CidEntry.ofJson?_toJson (h.sizes e he)
  have hnote : orDefault none (nullable asText) (r.note.map .text) = some r.note := by
    cases r.note <;> rfl
  have hcount : nullable (asNat Text.max64) (r.replicaCount.elim .null count)
      = some r.replicaCount := by
    cases hn : r.replicaCount with
    | none => rfl
    | some n => exact nullable_some nofun (asNat_count (h.count n hn))
  rw [ofJson?, slots_toJson]
  dsimp only [Option.bind_eq_bind, Option.bind_some, required, orDefault, asText] at hnote ⊢
  simp only [hentries, asList_texts, nullable_optionalText, Time.relaxed?_text h.time h.year,
    outcome?_exitCode, hnote, hcount, Option.bind_some]

/-- **A manifest reads back as the result it was written from.** -/
theorem ofText?_text (h : r.InRange) : ofText? r.text = some r := by
  rw [ofText?, text, parse?_pretty (legible_toJson h), Option.bind_some, ofJson?_toJson h]

/-- A result with quotes, control characters and other letters in its texts. -/
def sample : AddResult where
  rootCid := "bafy\\root"
  rootPath := "/srv/\"quoted\"\n\x01\t.bin"
  entries := [⟨"größe/π", "bafy\\root", Text.max64, true, none⟩, ⟨"", "", 0, false, some ""⟩]
  allocations := ["12D3", ""]
  profile := none
  addedAt := ⟨⟨0, 2, 29⟩, 23, 59, 60, 1⟩
  clusterHost := ""
  outcome := .partialSuccess
  error := some "\x7f\x00"
  note := some "none"
  replicaCount := some 2

theorem ofText?_text_sample : sample.InRange ∧ ofText? sample.text = some sample := by
  have h : sample.InRange := by
    refine ⟨?_, ?_, by decide, ⟨by decide, by decide⟩⟩
    · decide
    · exact fun n hn => Option.mem_some_iff.1 hn ▸ by decide
  exact ⟨h, ofText?_text h⟩

end AddResult

end PinKeeper
