import PinKeeper.Command.Arguments
import PinKeeper.Proofs.Answers

/-!
# Proofs/Command/Flag — a command line without the flag for the format

The flag `--json` may stand in any scope of a command line, once in each.  Leaving it out
(`withoutFlag`) leaves everything else that is asked for as it is (`read_withoutFlag`).

What is read of a scope is the same without the flag but for the flag itself (`Reading.plain`), and
every step of the reader keeps that: no other option goes by the flag, because options are looked up
by their names, and an option that waits for a value is never the flag, which takes none
(`Reading.Sound`).  At the flag itself one thing needs care.  It settles the value before it, which
without the flag is settled later, at the next word or at the end.  That comes to the same, since
every step settles first (`readScopes_settled`).
-/

namespace PinKeeper.Command

/-! ## The flag among the options -/

/-- In every scope the flag is an option without a letter and without a value. -/
theorem eq_of_mem_choices {scope : Scope} {c : Choice} (hc : c ∈ scope.choices)
    (hname : c.name = "json") : c = ⟨"json", none, .mark⟩ := by
  have hglobal : ∀ c ∈ globalChoices, c.name = "json" → c = ⟨"json", none, .mark⟩ := by
    simp [globalChoices]
  have hown : ∀ c ∈ scope.ownChoices, c.name ≠ "json" := by
    cases scope <;> simp [Scope.ownChoices, Scope.ownChoices.profile, Scope.ownChoices.dryRun]
  rcases List.mem_append.1 hc with hc | hc
  · exact absurd hname (hown c hc)
  · exact hglobal c hc hname

namespace Reading

variable {r s : Reading} {c : Choice} {name value : String}

/-- What was read, without the flag. -/
def plain (r : Reading) : Reading := { r with options := r.options.filter fun e => e.1 ≠ "json" }

/-- What is pending is not the flag. -/
def Sound (r : Reading) : Prop := ∀ c v, r.pending = some (c, v) → c.name ≠ "json"

theorem option?_plain (h : name ≠ "json") : r.plain.option? name = r.option? name := by
  rw [option?, option?, plain]
  induction r.options with
  | nil => rfl
  | cons e es ih =>
    by_cases he : e.1 = "json"
    · have hne : (name == e.1) = false := beq_false_of_ne (he ▸ h)
      rw [List.filter_cons_of_neg (by simpa using he), List.lookup_cons, hne, ih]
    · rw [List.filter_cons_of_pos (by simpa using he), List.lookup_cons, List.lookup_cons, ih]

theorem option?_plain_self : r.plain.option? "json" = none := by
  rw [option?, plain, List.lookup_eq_none_iff]
  intro e he
  have hname : e.1 ≠ "json" := of_decide_eq_true (List.mem_filter.1 he).2
  exact bne_iff_ne.2 hname.symm

theorem has_plain (h : name ≠ "json") : r.plain.has name = r.has name := by
  rw [has, has, option?_plain h]

/-! ## Steps without the flag -/

theorem take_eq_ok_iff : r.take c value = .ok s ↔
    r.has c.name = false ∧ s = { r with options := r.options ++ [(c.name, value)] } := by
  rw [take]
  split
  · next h => simp [h]
  · next h => simp [Bool.eq_false_iff.2 h, eq_comm]

theorem take_plain (hc : c.name ≠ "json") (h : r.take c value = .ok s) :
    r.plain.take c value = .ok s.plain := by
  obtain ⟨hnew, rfl⟩ := take_eq_ok_iff.1 h
  refine take_eq_ok_iff.2 ⟨(has_plain hc).trans hnew, ?_⟩
  simp [plain, hc]

theorem takeValue_plain (hc : c.name ≠ "json") (h : r.takeValue c value = .ok s) :
    r.plain.takeValue c value = .ok s.plain := by
  rw [takeValue] at h ⊢
  split at h
  · split at h
    · next hvalue =>
      rw [if_pos hvalue]
      exact take_plain hc h
    · cases h
  · cases h

theorem take_of_takeValue (h : r.takeValue c value = .ok s) : r.take c value = .ok s := by
  rw [takeValue] at h
  split at h
  · split at h
    · exact h
    · cases h
  · cases h

theorem pending_take (h : r.take c value = .ok s) : s.pending = r.pending := by
  obtain ⟨-, rfl⟩ := take_eq_ok_iff.1 h
  rfl

theorem pending_settle (h : r.settle = .ok s) : s.pending = none := by
  rw [settle] at h
  split at h
  · next hnone =>
    obtain rfl := Except.ok.inj h
    exact hnone
  · cases h
  · exact pending_take (take_of_takeValue h)

theorem settle_of_pending (h : r.pending = none) : r.settle = .ok r := by
  rw [settle, h]

theorem sound_of_pending (h : r.pending = none) : r.Sound := by
  intro c v hpending
  rw [h] at hpending
  cases hpending

theorem settle_plain (hr : r.Sound) (h : r.settle = .ok s) : r.plain.settle = .ok s.plain := by
  have hsame : r.plain.pending = r.pending := rfl
  rw [settle] at h ⊢
  rw [hsame]
  split at h
  · obtain rfl := Except.ok.inj h
    rfl
  · cases h
  · next c v hpending => exact takeValue_plain (r := { r with pending := none }) (hr c _ hpending) h

theorem choose_plain {attached : Option String} (hr : r.Sound) (hc : c.name ≠ "json")
    (h : r.choose c attached = .ok s) : r.plain.choose c attached = .ok s.plain ∧ s.Sound := by
  -- A value in the same word, one that is to come, one that is not taken, a mark, a stop.
  unfold choose at h ⊢
  split at h
  · obtain ⟨t, ht, h⟩ := exists_of_bind_eq_ok h
    rw [settle_plain hr ht]
    refine ⟨takeValue_plain hc h, sound_of_pending ?_⟩
    exact (pending_take (take_of_takeValue h)).trans (pending_settle ht)
  · obtain ⟨t, ht, h⟩ := exists_of_bind_eq_ok h
    obtain rfl := Except.ok.inj h
    rw [settle_plain hr ht]
    refine ⟨rfl, fun c' v hpending => ?_⟩
    obtain ⟨rfl, -⟩ := Prod.mk.inj (Option.some.inj hpending)
    exact hc
  · cases h
  · obtain ⟨t, ht, h⟩ := exists_of_bind_eq_ok h
    rw [settle_plain hr ht]
    exact ⟨take_plain hc h, sound_of_pending ((pending_take h).trans (pending_settle ht))⟩
  · obtain ⟨t, ht, h⟩ := exists_of_bind_eq_ok h
    cases h

theorem operand_eq_ok_iff {scope : Scope} {w : String} : r.operand scope w = .ok s ↔
    ∃ t, r.settle = .ok t ∧ (scope.operands[t.operands.length]?).any (· w) = true ∧
      s = { t with operands := t.operands ++ [w] } := by
  rw [operand]
  cases r.settle with
  | error e => simp [bind, Except.bind]
  | ok t =>
    simp only [bind, Except.bind, Except.ok.injEq, exists_eq_left']
    cases scope.operands[t.operands.length]? with
    | none => simp
    | some accepts => by_cases haccepts : accepts w <;> simp [haccepts, eq_comm]

theorem operand_plain {scope : Scope} {w : String} (hr : r.Sound) (h : r.operand scope w = .ok s) :
    r.plain.operand scope w = .ok s.plain ∧ s.Sound := by
  obtain ⟨t, ht, haccepts, rfl⟩ := operand_eq_ok_iff.1 h
  exact ⟨operand_eq_ok_iff.2 ⟨t.plain, settle_plain hr ht, haccepts, rfl⟩,
    sound_of_pending (pending_settle ht : t.pending = none)⟩

theorem short_plain {scope : Scope} : ∀ {letters : List Char} {r s : Reading}, r.Sound →
    short scope r letters = .ok s → short scope r.plain letters = .ok s.plain ∧ s.Sound
  | [], r, s, hr, h => by
    obtain rfl := Except.ok.inj h
    exact ⟨rfl, hr⟩
  | letter :: rest, r, s, hr, h => by
    rw [short] at h ⊢
    split at h
    · cases h
    next c hfind =>
    have hc : c.name ≠ "json" := fun hname => by
      have hmem : c ∈ scope.choices := List.mem_of_find?_eq_some hfind
      have hletter : (c.letter == some letter) = true :=
        List.find?_some (p := fun c : Choice => c.letter == some letter) hfind
      rw [eq_of_mem_choices hmem hname] at hletter
      cases hletter
    split at h
    · exact choose_plain hr hc h
    · exact choose_plain hr hc h
    · exact choose_plain hr hc h
    · obtain ⟨t, ht, h⟩ := exists_of_bind_eq_ok h
      obtain ⟨ht', hsound⟩ := choose_plain hr hc ht
      rw [ht']
      exact short_plain hsound h

theorem long_plain {scope : Scope} {attached : Option String} (hr : r.Sound)
    (hname : name = "json" → attached.isSome = true) (h : r.long scope name attached = .ok s) :
    r.plain.long scope name attached = .ok s.plain ∧ s.Sound := by
  rw [long] at h ⊢
  split at h
  · next c hfind =>
    refine choose_plain hr (fun hjson => ?_) h
    have hsame : (c.name == name) = true :=
      List.find?_some (p := fun c : Choice => c.name == name) hfind
    obtain ⟨v, rfl⟩ := Option.isSome_iff_exists.1 (hname (eq_of_beq hsame ▸ hjson))
    rw [eq_of_mem_choices (List.mem_of_find?_eq_some hfind) hjson] at h
    cases h
  · cases h

/-- **A word that is not the flag is taken without the flag as with it.** -/
theorem word_plain {scope : Scope} {w : String} (hr : r.Sound) (hw : w ≠ "--json")
    (h : r.word scope w = .ok s) : r.plain.word scope w = .ok s.plain ∧ s.Sound := by
  rw [word] at h ⊢
  split at h
  · next letters hletters =>
    refine long_plain hr (fun hname => ?_) h
    split
    · next hvalue =>
      refine absurd ?_ hw
      have hall := List.takeWhile_append_dropWhile (p := (· != '=')) (l := letters)
      rw [List.isEmpty_iff.1 hvalue, List.append_nil] at hall
      rw [hall] at hname
      rw [← String.toList_inj, hletters, ← String.toList_ofList (l := letters), hname]
      rfl
    · rfl
  · exact short_plain hr h
  · have hsame : r.plain.pending = r.pending := rfl
    rw [hsame]
    split at h
    · next c hpending =>
      obtain rfl := Except.ok.inj h
      refine ⟨rfl, fun c' v hp => ?_⟩
      obtain ⟨rfl, -⟩ := Prod.mk.inj (Option.some.inj hp)
      exact hr c _ hpending
    · exact operand_plain hr h

/-- The flag settles what is pending, and nothing else shows of it. -/
theorem word_flag {scope : Scope} (h : r.word scope "--json" = .ok s) :
    ∃ t, r.settle = .ok t ∧ s.plain = t.plain ∧ s.Sound := by
  have hfind : scope.choices.find? (fun c => c.name == "json") = some ⟨"json", none, .mark⟩ := by
    cases scope <;> rfl
  have hchoose : r.choose ⟨"json", none, .mark⟩ none = .ok s := by
    change r.long scope "json" none = .ok s at h
    rwa [long, hfind] at h
  obtain ⟨t, ht, htake⟩ := exists_of_bind_eq_ok hchoose
  obtain ⟨-, rfl⟩ := take_eq_ok_iff.1 htake
  refine ⟨t, ht, ?_, sound_of_pending (pending_settle ht : t.pending = none)⟩
  simp [plain]

/-! ## Settling early

Each step settles what is pending before it looks at anything else, so it may have been settled
before. -/

section Settled

variable (h : r.settle = .ok s)

include h

theorem settle_settled : s.settle = .ok s := settle_of_pending (pending_settle h)

theorem isWaiting_of_settle : r.isWaiting = false := by
  rw [isWaiting]
  split
  · next c hpending =>
    rw [settle, hpending] at h
    cases h
  · rfl

theorem choose_settled (c : Choice) (attached : Option String) :
    r.choose c attached = s.choose c attached := by
  unfold choose
  rw [h, settle_settled h]

theorem operand_settled (scope : Scope) (w : String) : r.operand scope w = s.operand scope w := by
  rw [operand, operand, h, settle_settled h]

theorem short_settled (scope : Scope) (letter : Char) (letters : List Char) :
    short scope r (letter :: letters) = short scope s (letter :: letters) := by
  simp only [short, choose_settled h]

theorem word_settled (scope : Scope) (w : String) : r.word scope w = s.word scope w := by
  have hr := isWaiting_of_settle h
  have hs := isWaiting_of_settle (settle_settled h)
  rw [word, word]
  split
  · simp only [long, choose_settled h]
  · exact short_settled h scope _ _
  · rw [isWaiting] at hr hs
    split at hr
    · cases hr
    · split at hs
      · cases hs
      · exact operand_settled h scope w

end Settled

end Reading

/-! ## Scopes -/

section Scopes

open Reading

variable {env : Environment}

/-- What is pending may be settled before the words that follow. -/
theorem readScopes_settled (scope : Scope) (onlyOperands : Bool) (ws : List String)
    {r s : Reading} (h : r.settle = .ok s) :
    readScopes env scope onlyOperands r ws = readScopes env scope onlyOperands s ws := by
  have hcomplete : complete env r = complete env s := by
    rw [complete, complete, h, settle_settled h]
  induction ws generalizing onlyOperands with
  | nil => rw [readScopes, readScopes, hcomplete]
  | cons w ws ih =>
    cases onlyOperands with
    | true => simp only [readScopes, operand_settled h]
    | false =>
      simp only [readScopes, isWaiting_of_settle h, isWaiting_of_settle (settle_settled h),
        word_settled h, hcomplete, ih]

theorem complete_plain {r s : Reading} (hr : r.Sound) (h : complete env r = .ok s) :
    complete env r.plain = .ok s.plain := by
  rw [complete] at h ⊢
  obtain ⟨t, ht, h⟩ := exists_of_bind_eq_ok h
  rw [settle_plain hr ht]
  change (if !t.plain.has "config-file" && _ then _ else _) = _
  rw [has_plain (by decide)]
  split at h
  · cases h
  · next hvariable =>
    obtain rfl := Except.ok.inj h
    exact if_neg hvariable

/-- Words without the flag; behind `--` every word is an operand. -/
def withoutFlag : List String → List String
  | [] => []
  | w :: ws =>
    if w = "--" then w :: ws else if w = "--json" then withoutFlag ws else w :: withoutFlag ws

/-- Scopes as they are read without the flag. -/
def plainScopes (opened : List (Scope × Reading)) : List (Scope × Reading) :=
  opened.map fun o => (o.1, o.2.plain)

theorem readScopes_nil {scope : Scope} {onlyOperands : Bool} {r : Reading}
    {opened : List (Scope × Reading)} (hr : r.Sound)
    (h : readScopes env scope onlyOperands r [] = .ok opened) :
    readScopes env scope onlyOperands r.plain [] = .ok (plainScopes opened) := by
  rw [readScopes] at h ⊢
  obtain ⟨s, hs, h⟩ := exists_of_bind_eq_ok h
  obtain rfl := Except.ok.inj h
  rw [complete_plain hr hs]
  rfl

theorem readScopes_operands : ∀ {ws : List String} {scope : Scope} {r : Reading}
    {opened : List (Scope × Reading)}, r.Sound → readScopes env scope true r ws = .ok opened →
      readScopes env scope true r.plain ws = .ok (plainScopes opened)
  | [], _, _, _, hr, h => readScopes_nil hr h
  | w :: ws, scope, r, opened, hr, h => by
    rw [readScopes] at h ⊢
    obtain ⟨s, hs, h⟩ := exists_of_bind_eq_ok h
    obtain ⟨hs', hsound⟩ := operand_plain hr hs
    rw [hs']
    exact readScopes_operands hsound h

/-- Behind `--` every word is an operand. -/
theorem readScopes_dashes (scope : Scope) (r : Reading) (ws : List String) :
    readScopes env scope false r ("--" :: ws) = readScopes env scope true r ws := by
  have hcommand : scope.commands.lookup "--" = none := by cases scope <;> decide
  have hhelp : ("--" = helpWord) = False := by decide
  simp only [readScopes, hcommand, hhelp, ite_self, decide_false, Bool.false_and,
    Bool.false_eq_true, if_false, if_true]

/-- The flag is no command and asks for no help. -/
theorem readScopes_flag (scope : Scope) (r : Reading) (ws : List String) :
    readScopes env scope false r ("--json" :: ws)
      = r.word scope "--json" >>= fun s => readScopes env scope false s ws := by
  have hcommand : scope.commands.lookup "--json" = none := by cases scope <;> decide
  have hhelp : ("--json" = helpWord) = False := by decide
  have hdashes : ("--json" = "--") = False := by decide
  simp only [readScopes, hcommand, hhelp, hdashes, ite_self, decide_false, Bool.false_and,
    Bool.false_eq_true, if_false]

/-- **Scopes are read without the flag as with it**, but for the flag itself. -/
theorem readScopes_withoutFlag : ∀ {ws : List String} {scope : Scope} {r : Reading}
    {opened : List (Scope × Reading)}, r.Sound → readScopes env scope false r ws = .ok opened →
      readScopes env scope false r.plain (withoutFlag ws) = .ok (plainScopes opened)
  | [], _, _, _, hr, h => readScopes_nil hr h
  | w :: ws, scope, r, opened, hr, h => by
    have hwaiting : r.plain.isWaiting = r.isWaiting := rfl
    rw [withoutFlag]
    by_cases hdashes : w = "--"
    · subst hdashes
      rw [readScopes_dashes] at h
      rw [if_pos rfl, readScopes_dashes]
      exact readScopes_operands hr h
    by_cases hflag : w = "--json"
    · subst hflag
      rw [readScopes_flag] at h
      obtain ⟨s, hs, h⟩ := exists_of_bind_eq_ok h
      obtain ⟨t, ht, hplain, hsound⟩ := word_flag hs
      rw [if_neg hdashes, if_pos rfl, readScopes_settled scope false _ (settle_plain hr ht),
        ← hplain]
      exact readScopes_withoutFlag hsound h
    rw [if_neg hdashes, if_neg hflag]
    rw [readScopes] at h ⊢
    rw [hwaiting]
    split at h
    · obtain ⟨rest, hrest, h⟩ := exists_of_bind_eq_ok h
      obtain ⟨s, hs, h⟩ := exists_of_bind_eq_ok h
      obtain rfl := Except.ok.inj h
      have hempty : readScopes env _ false Reading.empty (withoutFlag ws) = _ :=
        readScopes_withoutFlag (sound_of_pending rfl) hrest
      rw [hempty, complete_plain hr hs]
      rfl
    · split at h
      · cases h
      next hhelp =>
      rw [if_neg hhelp, if_neg hdashes]
      obtain ⟨s, hs, h⟩ := exists_of_bind_eq_ok h
      obtain ⟨hs', hsound⟩ := word_plain hr hflag hs
      rw [hs']
      exact readScopes_withoutFlag hsound h

theorem ofReading?_plain (r : Reading) (scope : Scope) :
    Task.ofReading? r.plain scope = Task.ofReading? r scope := by
  have hsame {name : String} (h : name ≠ "json") : r.plain.option? name = r.option? name :=
    option?_plain h
  have hoperands : r.plain.operands = r.operands := rfl
  simp only [Task.ofReading?, has, hoperands, hsame (show "profile" ≠ "json" by decide),
    hsame (show "output-json" ≠ "json" by decide), hsame (show "no-recursive" ≠ "json" by decide),
    hsame (show "dry-run" ≠ "json" by decide), hsame (show "output" ≠ "json" by decide),
    hsame (show "force" ≠ "json" by decide)]

/-- **Without the flag the same is asked for, in the other format.** -/
theorem read_withoutFlag {args : List String} {i : Invocation}
    (h : Invocation.read env args = .ok i) :
    Invocation.read env (withoutFlag args) = .ok { i with json := false } := by
  rw [Invocation.read] at h ⊢
  obtain ⟨opened, hopened, h⟩ := exists_of_bind_eq_ok h
  have hplain : readScopes env .program false .empty (withoutFlag args)
      = .ok (plainScopes opened) :=
    readScopes_withoutFlag (sound_of_pending rfl) hopened
  rw [hplain]
  have hreverse : (plainScopes opened).reverse = plainScopes opened.reverse := List.map_reverse.symm
  have hhead : ((plainScopes opened).reverse.head?.bind fun o => Task.ofReading? o.2 o.1)
      = opened.reverse.head?.bind fun o => Task.ofReading? o.2 o.1 := by
    rw [hreverse, plainScopes, List.head?_map, Option.bind_map]
    simp only [Function.comp_def, ofReading?_plain]
  have hinnermost {name : String} (hname : name ≠ "json") :
      ((plainScopes opened).reverse.findSome? fun o => o.2.option? name)
        = opened.reverse.findSome? fun o => o.2.option? name := by
    rw [hreverse, plainScopes, List.findSome?_map]
    simp only [Function.comp_def, option?_plain hname]
  have hjson : ((plainScopes opened).reverse.findSome? fun o => o.2.option? "json") = none := by
    rw [List.findSome?_eq_none_iff]
    intro o ho
    obtain ⟨o, -, rfl⟩ := List.mem_map.1 (List.mem_reverse.1 ho)
    exact option?_plain_self
  dsimp only [bind, Except.bind] at h ⊢
  rw [hhead, hinnermost (by decide : "config-file" ≠ "json"),
    hinnermost (by decide : "host" ≠ "json"), hinnermost (by decide : "debug" ≠ "json"), hjson]
  split at h
  · obtain rfl := Except.ok.inj h
    rfl
  · cases h

end Scopes

end PinKeeper.Command
