import PinKeeper.Json.Record
import PinKeeper.Proofs.Dict
import PinKeeper.Proofs.Json.Reader

/-!
# Proofs/Json/Record — typed values out of JSON, and back

Two questions about a reader.  The first is whether it takes back what a typed value was written as,
which for a list or a map comes down to its elements (`asList_map`, `asDict_map`).  The second is
what can be said of all that it gives: what holds of a default and of whatever the reader makes of
a value that is there, holds of the field (`forall_orDefault`, `forall_nullable`).  A written value
has to be legible besides, or its texts do not lead back to it (`readsBack`).
-/

namespace PinKeeper.Json

variable {α : Type}

/-! ## Lists -/

/-- A list is read when each element is, in order. -/
theorem mapM_eq_some_iff {β : Type} {f : α → Option β} {as : List α} {bs : List β} :
    as.mapM f = some bs ↔ as.map f = bs.map some := by
  induction as generalizing bs with
  | nil =>
    rw [List.mapM_nil, List.map_nil, eq_comm (a := []), List.map_eq_nil_iff]
    exact Option.some_inj.trans eq_comm
  | cons a as ih =>
    rw [List.mapM_cons, List.map_cons, Option.bind_eq_bind, Option.bind_eq_some_iff]
    constructor
    · rintro ⟨b, hb, h⟩
      obtain ⟨cs, hcs, h⟩ := Option.bind_eq_some_iff.1 h
      obtain rfl := Option.some.inj h
      rw [hb, ih.1 hcs, List.map_cons]
    · intro h
      cases bs with
      | nil => cases h
      | cons b bs =>
        obtain ⟨hb, hbs⟩ := List.cons.inj h
        refine ⟨b, hb, ?_⟩
        rw [ih.2 hbs]
        rfl

/-- **A list is not read if one element is not**, and only then. -/
theorem mapM_eq_none_iff {β : Type} {f : α → Option β} {as : List α} :
    as.mapM f = none ↔ ∃ a ∈ as, f a = none := by
  induction as with
  | nil => exact ⟨nofun, fun h => nomatch h⟩
  | cons a as ih =>
    rw [List.mapM_cons, Option.bind_eq_bind, List.exists_mem_cons_iff, ← ih]
    cases f a with
    | none => exact ⟨fun _ => .inl rfl, fun _ => rfl⟩
    | some b =>
      rw [Option.bind_some, Option.bind_eq_bind]
      cases as.mapM f with
      | none => exact ⟨fun _ => .inr rfl, fun _ => rfl⟩
      | some bs => exact ⟨nofun, fun h => h.elim nofun nofun⟩

/-- What is read from a list, each part of it was read from an element. -/
theorem exists_mem_of_mapM {β : Type} {f : α → Option β} {as : List α} {bs : List β}
    (h : as.mapM f = some bs) (b : β) (hb : b ∈ bs) : ∃ a ∈ as, f a = some b := by
  have hmem : some b ∈ as.map f := mapM_eq_some_iff.1 h ▸ List.mem_map_of_mem hb
  exact List.mem_map.1 hmem

/-! ## What is written is taken back -/

section Written

theorem asNat_count {n max : Nat} (h : n ≤ max) : asNat max (count n) = some n := by
  have hrange : (decide (0 ≤ (n : Int)) && decide ((n : Int) ≤ max)) = true := by
    rw [Bool.and_eq_true, decide_eq_true_eq, decide_eq_true_eq]
    omega
  rw [count, asNat, if_pos hrange, Int.toNat_natCast]

theorem asInt_int {i low high : Int} (h : low ≤ i ∧ i ≤ high) : asInt low high (.int i) = some i :=
  if_pos (Bool.and_eq_true_iff.2 ⟨decide_eq_true h.1, decide_eq_true h.2⟩)

theorem nullable_some {read : Json → Option α} {v : Json} {a : α} (hv : v ≠ .null)
    (h : read v = some a) : nullable read v = some (some a) := by
  rw [nullable, h, Option.map_some]
  exact hv

theorem nullable_optionalText (o : Option String) :
    nullable asText (optionalText o) = some o := by
  cases o <;> rfl

theorem asList_map {read : Json → Option α} {write : α → Json} {as : List α}
    (h : ∀ a ∈ as, read (write a) = some a) : asList read (.array (as.map write)) = some as :=
  mapM_map_of_forall h

theorem asList_texts (ss : List String) : asList asText (texts ss) = some ss :=
  asList_map fun _ _ => rfl

theorem asDict_map {read : Json → Option α} {write : α → Json} {d : Dict α}
    (h : ∀ e ∈ d.entries, read (write e.2) = some e.2) :
    asDict read (.object (d.entries.map fun e => (e.1, write e.2))) = some d := by
  have hentries : (d.entries.map fun e => (e.1, write e.2)).mapM (fun m : String × Json =>
      (read m.2).map fun v => (m.1, v)) = some d.entries :=
    mapM_map_of_forall fun e he => by rw [h e he, Option.map_some]
  rw [asDict, hentries, Option.map_some, Dict.ofList_entries]

end Written

/-! ## What is written is legible -/

section Legibility

theorem legible_optionalText (o : Option String) : (optionalText o).Legible := by
  cases o with
  | none => exact .null
  | some s => exact .text s

theorem legible_count {n : Nat} (h : n ≤ Text.max64) : (count n).Legible :=
  .int (overflows_digits_of_le h)

theorem legible_array_map {write : α → Json} {as : List α} (h : ∀ a ∈ as, (write a).Legible) :
    (Json.array (as.map write)).Legible :=
  .array (List.forall_mem_map.2 h)

theorem legible_texts (ss : List String) : (texts ss).Legible :=
  legible_array_map fun s _ => .text s

theorem legible_object_map {write : α → Json} {es : List (String × α)}
    (h : ∀ e ∈ es, (write e.2).Legible) :
    (Json.object (es.map fun e => (e.1, write e.2))).Legible :=
  .object (List.forall_mem_map.2 h)

end Legibility

/-! ## Texts that lead back -/

/-- The reader takes both texts of the value for `a`. -/
structure ReadsBack (read : Json → Option α) (v : Json) (a : α) : Prop where
  compact : (parse? v.compact).bind read = some a
  pretty : (parse? v.pretty).bind read = some a

theorem readsBack {read : Json → Option α} {v : Json} {a : α} (hv : v.Legible)
    (h : read v = some a) : ReadsBack read v a where
  compact := by rw [parse?_compact hv, Option.bind_some, h]
  pretty := by rw [parse?_pretty hv, Option.bind_some, h]

/-! ## What a reader gives -/

section Given

variable {P : α → Prop} {read : Json → Option α} {default : α}

theorem forall_orDefault {o : Option Json} (hdefault : P default)
    (hread : ∀ v, ∀ a ∈ read v, P a) : ∀ a ∈ orDefault default read o, P a := by
  cases o with
  | none => exact fun a ha => Option.mem_some_iff.1 ha ▸ hdefault
  | some v => exact hread v

theorem forall_asNat {max : Nat} (v : Json) : ∀ n ∈ asNat max v, n ≤ max := by
  intro n hn
  unfold asNat at hn
  split at hn
  · obtain ⟨hrange, hn⟩ := Option.ite_none_right_eq_some.1 hn
    rw [Bool.and_eq_true, decide_eq_true_eq, decide_eq_true_eq] at hrange
    obtain rfl := Option.some.inj hn
    omega
  · cases hn

theorem forall_asInt {low high : Int} (v : Json) :
    ∀ n ∈ asInt low high v, low ≤ n ∧ n ≤ high := by
  intro n hn
  unfold asInt at hn
  split at hn
  · obtain ⟨hrange, hn⟩ := Option.ite_none_right_eq_some.1 hn
    rw [Bool.and_eq_true, decide_eq_true_eq, decide_eq_true_eq] at hrange
    exact Option.some.inj hn ▸ hrange
  · cases hn

theorem forall_nullable (hread : ∀ v, ∀ a ∈ read v, P a) (v : Json) :
    ∀ o ∈ nullable read v, ∀ a ∈ o, P a := by
  intro o ho a ha
  unfold nullable at ho
  split at ho
  · obtain rfl := Option.mem_some_iff.1 ho
    cases ha
  · obtain ⟨b, hb, rfl⟩ := Option.map_eq_some_iff.1 ho
    exact hread v a (Option.mem_some_iff.1 ha ▸ hb)

/-- Every value of a map that is read was read. -/
theorem forall_asDict (hread : ∀ v, ∀ a ∈ read v, P a) (v : Json) :
    ∀ d ∈ asDict read v, ∀ e ∈ d.entries, P e.2 := by
  intro d hd e he
  unfold asDict at hd
  split at hd
  · next ms =>
    obtain ⟨es, hes, rfl⟩ := Option.map_eq_some_iff.1 hd
    obtain ⟨m, hm, hme⟩ := exists_mem_of_mapM hes e (Dict.mem_of_mem_ofList he)
    obtain ⟨a, ha, rfl⟩ := Option.map_eq_some_iff.1 hme
    exact hread m.2 a ha
  · cases hd

end Given

end PinKeeper.Json
