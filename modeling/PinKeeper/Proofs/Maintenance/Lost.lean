import PinKeeper.Proofs.Dict
import PinKeeper.Proofs.Maintenance.Rebalance
import PinKeeper.Proofs.Maintenance.Repair

/-!
# Proofs/Maintenance/Lost — which pins are broken, and which of them are lost

What a repair thinks of a pin goes by the classes of what the peers report, whatever the peers are
called (`nodesWith_eq_nil_iff`).  A pin is broken if some peer reports an error, and a broken pin is
recoverable if some peer is healthy.

There is a third class.  A report that is `unknown` neither breaks a pin nor keeps it from being
lost, and a peer that is allocated may report nothing at all.  So a lost pin is one of which no peer
says anything good (`classify_by_reports`), and not one of which every peer says that it failed
(`unsure_is_lost`).
-/

namespace PinKeeper

/-! ## Classes of reports -/

theorem PinState.isHealthy_eq_false_iff {x : PinState} :
    x.isHealthy = false ↔ x.isError = true ∨ x = .unknown := by
  cases x <;> decide

/-- Some peer's report is of a kind. -/
def Pin.Reports (pin : Pin) (kind : PinState → Bool) : Prop :=
  ∃ id x, pin.stateOf id = some x ∧ kind x = true

theorem Pin.stateOf_eq_some_iff {pin : Pin} {id : String} {x : PinState} :
    pin.stateOf id = some x ↔ ∃ s, (id, s) ∈ pin.peerMap.entries ∧ s.state = x := by
  simp only [stateOf, Option.map_eq_some_iff, Dict.find?_eq_some_iff]

theorem Pin.reports_iff {pin : Pin} {kind : PinState → Bool} :
    pin.Reports kind ↔ ∃ e ∈ pin.peerMap.entries, kind e.2.state = true := by
  constructor
  · rintro ⟨id, x, hx, hkind⟩
    obtain ⟨s, hs, rfl⟩ := Pin.stateOf_eq_some_iff.1 hx
    exact ⟨(id, s), hs, hkind⟩
  · rintro ⟨⟨id, s⟩, hs, hkind⟩
    exact ⟨id, s.state, Pin.stateOf_eq_some_iff.2 ⟨s, hs, rfl⟩, hkind⟩

/-- No entry is of a kind exactly if no report is. -/
theorem Pin.filter_entries_eq_nil_iff {pin : Pin} {kind : PinState → Bool} :
    (pin.peerMap.entries.filter fun e => kind e.2.state) = [] ↔ ¬pin.Reports kind := by
  rw [List.filter_eq_nil_iff, Pin.reports_iff, not_exists]
  exact forall_congr' fun e => not_and.symm

namespace Repair

variable {p : Policy} {pin : Pin}

/-- **No node is named for a kind exactly if no report is of that kind.** -/
theorem nodesWith_eq_nil_iff {kind : PinState → Bool} :
    nodesWith p pin kind = [] ↔ ¬pin.Reports kind := by
  rw [nodesWith, List.map_eq_nil_iff, Pin.filter_entries_eq_nil_iff]

theorem classify_eq_none_iff_not_reports :
    classify p pin = none ↔ ¬pin.Reports PinState.isError :=
  classify_eq_none_iff_nodesWith.trans nodesWith_eq_nil_iff

/-- **One healthy report makes a broken pin recoverable**, and nothing else does. -/
theorem recoverable_iff_reports {b : BrokenPin} (h : b ∈ classify p pin) :
    b.recoverable = true ↔ pin.Reports PinState.isHealthy := by
  rw [eq_of_mem_classify h, BrokenPin.recoverable, Bool.not_eq_true', Bool.eq_false_iff, Ne,
    List.isEmpty_iff, nodesWith_eq_nil_iff, not_not]

/-- A broken pin is lost exactly if each report is an error or unknown. -/
theorem lost_iff {b : BrokenPin} (h : b ∈ classify p pin) :
    b.recoverable = false ↔
      ∀ id x, pin.stateOf id = some x → x.isError = true ∨ x = .unknown := by
  rw [← Bool.not_eq_true, recoverable_iff_reports h, Pin.Reports]
  simp only [not_exists, not_and, Bool.not_eq_true, PinState.isHealthy_eq_false_iff]

/-- **A pin is classified by what its peers report.**  It is broken exactly if some peer reports an
error, and lost exactly if besides that each report is an error or unknown.  Of a lost pin each
allocated peer reports nothing, or nothing that is known, or an error; one healthy report makes a
broken pin recoverable. -/
theorem classify_by_reports (p : Policy) (pin : Pin) :
    (classify p pin = none ↔ ∀ id x, pin.stateOf id = some x → x.isError = false) ∧
      ((∃ b ∈ classify p pin, b.recoverable = false) ↔
        (∃ id x, pin.stateOf id = some x ∧ x.isError = true) ∧
          ∀ id x, pin.stateOf id = some x → x.isError = true ∨ x = .unknown) ∧
      ∀ b ∈ classify p pin,
        (b.recoverable = false ↔
          ∀ id x, pin.stateOf id = some x → x.isError = true ∨ x = .unknown) ∧
        (b.recoverable = false → ∀ id ∈ pin.allocations,
          pin.stateOf id = none ∨ pin.stateOf id = some .unknown ∨
            ∃ x, pin.stateOf id = some x ∧ x.isError = true) ∧
        ∀ id x, pin.stateOf id = some x → x.isHealthy = true → b.recoverable = true := by
  refine ⟨?_, ?_, fun b hb => ⟨lost_iff hb, fun hnot id _ => ?_, fun id x hx hhealthy => ?_⟩⟩
  · rw [classify_eq_none_iff_not_reports, Pin.Reports]
    simp only [not_exists, not_and, Bool.not_eq_true]
  · constructor
    · rintro ⟨b, hb, hnot⟩
      refine ⟨not_not.1 fun hnone => ?_, (lost_iff hb).1 hnot⟩
      rw [classify_eq_none_iff_not_reports.2 hnone] at hb
      cases hb
    · rintro ⟨herror, hall⟩
      obtain ⟨b, hb⟩ := Option.ne_none_iff_exists'.1 fun hnone =>
        classify_eq_none_iff_not_reports.1 hnone herror
      exact ⟨b, hb, (lost_iff hb).2 hall⟩
  · cases hx : pin.stateOf id with
    | none => exact .inl rfl
    | some x =>
      rcases (lost_iff hb).1 hnot id x hx with herror | rfl
      · exact .inr (.inr ⟨x, rfl, herror⟩)
      · exact .inr (.inl rfl)
  · exact (recoverable_iff_reports hb).2 ⟨id, x, hx, hhealthy⟩

end Repair

/-- Pin of which one peer reports an error and one nothing that is known, and a third peer does not
report. -/
def Sample.unsure : Pin :=
  { pin "unsure" none ["A", "B", "C"] with
    peerMap := .ofList [("A", ⟨"alpha", .pinError, none⟩), ("B", ⟨"beta", .unknown, none⟩)] }

/-- A pin may be lost though not every report is an error, and not every allocated peer reports
one. -/
theorem Repair.unsure_is_lost :
    ∃ b ∈ classify Sample.policy Sample.unsure, b.recoverable = false ∧
      (¬∀ id x, Sample.unsure.stateOf id = some x → x.isError = true) ∧
      ¬∀ id ∈ Sample.unsure.allocations,
        ∃ x, Sample.unsure.stateOf id = some x ∧ x.isError = true := by
  have hunknown : Sample.unsure.stateOf "B" = some .unknown := by decide
  have hsilent : Sample.unsure.stateOf "C" = none := by decide
  refine ⟨⟨"unsure", none, ["alpha"], [], .none⟩, by decide, rfl, fun h => ?_, fun h => ?_⟩
  · exact Bool.false_ne_true (h "B" .unknown hunknown)
  · obtain ⟨x, hx, -⟩ := h "C" (by decide)
    rw [hsilent] at hx
    cases hx

end PinKeeper
