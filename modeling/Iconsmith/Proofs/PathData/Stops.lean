import Iconsmith.Proofs.PathData.Faults

/-!
# Where reading stops

A rule of the grammar that leaves text over says the same of the text cut short anywhere in what is
left over. So when reading stops, everything before that place is path data by itself: it is read,
and gives the commands before the fault. The fault describes the text it lies at.
-/

namespace Iconsmith

/-! ### Cutting off what is left over -/

lemma Numeral.Longest.cut {s r u : List Char} {n : Numeral} (h : Longest s n (r ++ u)) :
    ∃ s', s = s' ++ u ∧ Longest s' n r := by
  obtain ⟨t, rfl, ht, hmax⟩ := h
  refine ⟨t ++ r, (List.append_assoc t r u).symm, t, rfl, ht, fun t' r' n' hsplit ht' => ?_⟩
  refine hmax t' (r' ++ u) n' ?_ ht'
  rw [← List.append_assoc, hsplit, List.append_assoc]

namespace PathData

open Numeral (startsNumeral)
open Text (byteSize)

section Cutting

variable {s r u : List Char}

lemma Skips.cut {p : Char → Bool} (h : Skips p s (r ++ u)) : ∃ s', s = s' ++ u ∧ Skips p s' r := by
  obtain ⟨t, rfl, ht⟩ := h
  exact ⟨t ++ r, (List.append_assoc t r u).symm, t, rfl, ht⟩

lemma Separator.cut (h : Separator s (r ++ u)) : ∃ s', s = s' ++ u ∧ Separator s' r := by
  cases h with
  | blanks h =>
    obtain ⟨s', rfl, hs⟩ := h.cut
    exact ⟨s', rfl, .blanks hs⟩
  | comma h₁ h₂ =>
    obtain ⟨t, rfl, ht⟩ := h₂.cut
    obtain ⟨s', rfl, hs⟩ := Skips.cut (r := ',' :: t) h₁
    exact ⟨s', rfl, .comma hs ht⟩

lemma Argument.cut {kind : Operand.Kind} {a : Operand Float} (h : Argument kind s a (r ++ u)) :
    ∃ s', s = s' ++ u ∧ Argument kind s' a r := by
  cases h with
  | number h =>
    obtain ⟨s', rfl, hs⟩ := h.cut
    exact ⟨s', rfl, .number hs⟩
  | off => exact ⟨'0' :: r, rfl, .off⟩
  | on => exact ⟨'1' :: r, rfl, .on⟩

lemma Group.cut {kinds : List Operand.Kind} {as : List (Operand Float)}
    (h : Group kinds s as (r ++ u)) : ∃ s', s = s' ++ u ∧ Group kinds s' as r := by
  generalize hw : r ++ u = w at h
  induction h with
  | last h =>
    subst hw
    obtain ⟨s', rfl, hs⟩ := h.cut
    exact ⟨s', rfl, .last hs⟩
  | more ha hsep _ ih =>
    obtain ⟨u', rfl, hu⟩ := ih hw
    obtain ⟨t', rfl, ht⟩ := hsep.cut
    obtain ⟨s', rfl, hs⟩ := ha.cut
    exact ⟨s', rfl, .more hs ht hu⟩

lemma Repeats.cut {v : Verb} {relative : Bool} {cs : List (Command Float)}
    (h : Repeats v relative s cs (r ++ u)) : ∃ s', s = s' ++ u ∧ Repeats v relative s' cs r := by
  generalize hw : r ++ u = w at h
  induction h with
  | done hsep =>
    subst hw
    obtain ⟨s', rfl, hs⟩ := hsep.cut
    exact ⟨s', rfl, .done hs⟩
  | more hsep hg hc _ ih =>
    obtain ⟨u', rfl, hu⟩ := ih hw
    obtain ⟨t', rfl, ht⟩ := hg.cut
    obtain ⟨s', rfl, hs⟩ := hsep.cut
    exact ⟨s', rfl, .more hs ht hc hu⟩

lemma Item.cut {cs : List (Command Float)} (h : Item s cs (r ++ u)) :
    ∃ s', s = s' ++ u ∧ Item s' cs r := by
  cases h with
  | close => exact ⟨_ :: r, rfl, .close⟩
  | drawn hclose hskip hg hc hrepeats =>
    obtain ⟨u', rfl, hu⟩ := hrepeats.cut
    obtain ⟨t', rfl, ht⟩ := hg.cut
    obtain ⟨s', rfl, hs⟩ := hskip.cut
    exact ⟨_ :: s', rfl, .drawn hclose hs ht hc hu⟩

end Cutting

/-! ### The commands a letter stands for -/

lemma verb_of_command? {v : Verb} {relative : Bool} {as : List (Operand Float)}
    {c : Command Float} (h : v.command? relative as = some c) :
    c.verb = v ∧ (v ≠ .close → c.isRelative = relative) := by
  unfold Verb.command? at h
  split at h
  all_goals first
    | contradiction
    | cases h
      exact ⟨rfl, fun hv => by first | rfl | exact absurd rfl hv⟩

/-- A command that the letter of a verb makes, of its first operands or of further ones. -/
def MadeBy (v : Verb) (relative : Bool) (c : Command Float) : Prop :=
  (c.verb = v ∨ c.verb = v.repeated) ∧ c.isRelative = relative

lemma repeated_ne_close {v : Verb} (h : v ≠ .close) : v.repeated ≠ .close := by
  cases v
  case close => contradiction
  all_goals exact Verb.noConfusion

lemma Repeats.madeBy {v : Verb} {relative : Bool} {s r : List Char} {cs : List (Command Float)}
    (h : Repeats v relative s cs r) (hv : v ≠ .close) {c : Command Float} (hc : c ∈ cs) :
    MadeBy v relative c := by
  induction h with
  | done _ => cases hc
  | more _ _ hmade _ ih =>
    obtain ⟨hverb, hrelative⟩ := verb_of_command? hmade
    rcases List.mem_cons.mp hc with rfl | hc
    · exact ⟨.inr hverb, hrelative (repeated_ne_close hv)⟩
    · exact ih hc

/-! ### What a fault says of the text it lies at -/

/-- How a fault describes the text it lies at, when the commands before it are known. -/
inductive Describes (cs : List (Command Float)) : Fault → List Char → Prop
  /-- No letter, shown with what follows it up to twelve characters. -/
  | unexpected {c : Char} {t : List Char} :
      Text.isLetter c = false → Describes cs (.unexpected (String.ofList ((c :: t).take 12))) (c :: t)
  /-- A letter of no command. -/
  | unknownCommand {c : Char} {t : List Char} :
      Text.isLetter c = true → Verb.ofLetter? c = none → Describes cs (.unknownCommand c) (c :: t)
  /-- The letter of a command whose first operands cannot be read. -/
  | missingOperands {c : Char} {t : List Char} {v : Verb} :
      Verb.ofLetter? c = some v → v ≠ .close → Describes cs (.missingOperands c) (c :: t)
  /-- The beginning of further operands for the letter that made the last command. -/
  | missingRepeat {letter : Char} {t : List Char} {v : Verb} {c : Command Float} :
      Verb.ofLetter? letter = some v → cs.getLast? = some c → MadeBy v letter.isLower c →
      startsNumeral t = true → Describes cs (.missingOperands letter) t

lemma Describes.append {cs : List (Command Float)} {fault : Fault} {t : List Char}
    (h : Describes cs fault t) (cs' : List (Command Float)) : Describes (cs' ++ cs) fault t := by
  cases h with
  | unexpected hc => exact .unexpected hc
  | unknownCommand hc hnone => exact .unknownCommand hc hnone
  | missingOperands hv hclose => exact .missingOperands hv hclose
  | missingRepeat hv hlast hmade hstart =>
    exact .missingRepeat hv (by rw [List.getLast?_append, hlast, Option.some_or]) hmade hstart

lemma describes_repeat {letter : Char} {v : Verb} (hv : Verb.ofLetter? letter = some v)
    {cs : List (Command Float)} (hne : cs ≠ []) (hmade : ∀ c ∈ cs, MadeBy v letter.isLower c)
    {t : List Char} (ht : startsNumeral t = true) : Describes cs (.missingOperands letter) t :=
  .missingRepeat hv (List.getLast?_eq_some_getLast hne) (hmade _ (List.getLast_mem hne)) ht

/-! ### The text before a fault -/

section Stopping

variable {s : List Char} {stop : Stop}

lemma commands_nil : Commands [] [] :=
  .done ⟨[], rfl, nofun⟩

lemma Item.commands {cs : List (Command Float)} (h : Item s cs []) : Commands s cs := by
  have hcommands := Commands.item ⟨[], rfl, nofun⟩ h commands_nil
  rwa [List.append_nil] at hcommands

/-- The groups before the one that cannot be read are read where the text ends with them. -/
lemma repeats_of_readRepeats_eq_error {v : Verb} {letter : Char}
    (h : readRepeats v letter s = .error stop) :
    stop.fault = .missingOperands letter ∧ startsNumeral stop.rest = true ∧
      ∃ before cs, s = before ++ stop.rest ∧ Repeats v letter.isLower before cs [] := by
  fun_induction readRepeats v letter s with
  | case1 s s' hstart _ =>
    cases h
    obtain ⟨before, hbefore, hsep⟩ := Separator.cut (r := []) (separator_skipSeparator s)
    exact ⟨rfl, hstart, before, [], hbefore, .done hsep⟩
  | case2 s s' hstart c t hc ih =>
    obtain ⟨as, hg, hmade⟩ := readCommand?_eq_some_iff.mp hc
    obtain hrest | ⟨_, _, hpure⟩ := bind_eq_error.mp h
    case inr => cases hpure
    obtain ⟨hfault, hnumeral, before, cs, hbefore, hrepeats⟩ := ih hrest
    rw [hbefore] at hg
    obtain ⟨operands, hoperands, hg⟩ := hg.cut
    have hsep := separator_skipSeparator s
    rw [show skipSeparator s = operands ++ stop.rest from hoperands] at hsep
    obtain ⟨text, htext, hsep⟩ := hsep.cut
    exact ⟨hfault, hnumeral, text, c :: cs, htext, .more hsep hg hmade hrepeats⟩
  | case3 s s' _ => cases h

/-- A command is cut short where its first operands are missing, and otherwise at a further group
behind the commands its letter made. -/
lemma commands_of_readOperands_eq_error {letter : Char} {v : Verb}
    (hv : Verb.ofLetter? letter = some v)
    (h : readOperands v letter (letter :: s) s = .error stop) :
    ∃ before cs, letter :: s = before ++ stop.rest ∧ Commands before cs ∧
      Describes cs stop.fault stop.rest := by
  unfold readOperands at h
  split at h
  case isTrue => cases h
  rename_i hclose
  split at h
  · cases h
    exact ⟨[], [], rfl, commands_nil, .missingOperands hv hclose⟩
  · rename_i c t hc
    obtain ⟨as, hg, hmade⟩ := readCommand?_eq_some_iff.mp hc
    obtain hrest | ⟨_, _, hpure⟩ := bind_eq_error.mp h
    case inr => cases hpure
    obtain ⟨hfault, hnumeral, before, cs, rfl, hrepeats⟩ := repeats_of_readRepeats_eq_error hrest
    obtain ⟨operands, hoperands, hgroup⟩ := hg.cut
    have hskips := skips_trimStart s
    rw [hoperands] at hskips
    obtain ⟨text, rfl, hskip⟩ := hskips.cut
    have hitem : Item (letter :: text) (c :: cs) [] := by
      rw [eq_letterOf hv]
      exact .drawn hclose hskip hgroup hmade hrepeats
    obtain ⟨hverb, hrelative⟩ := verb_of_command? hmade
    have hall : ∀ c' ∈ c :: cs, MadeBy v letter.isLower c' :=
      List.forall_mem_cons.mpr
        ⟨⟨.inl hverb, hrelative hclose⟩, fun _ hc' => hrepeats.madeBy hclose hc'⟩
    refine ⟨letter :: text, c :: cs, rfl, hitem.commands, ?_⟩
    rw [hfault]
    exact describes_repeat hv (List.cons_ne_nil c cs) hall hnumeral

lemma commands_of_readStep_eq_error {letter : Char} (h : readStep letter s = .error stop) :
    ∃ before cs, letter :: s = before ++ stop.rest ∧ Commands before cs ∧
      Describes cs stop.fault stop.rest := by
  unfold readStep at h
  split at h
  · rename_i hletter
    cases h
    exact ⟨[], [], rfl, commands_nil, .unexpected (by simpa using hletter)⟩
  · rename_i hletter
    split at h
    · rename_i hnone
      cases h
      exact ⟨[], [], rfl, commands_nil, .unknownCommand (by simpa using hletter) hnone⟩
    · rename_i v hv
      exact commands_of_readOperands_eq_error hv h

/-- What is read before the fault is all that stands there. -/
lemma commands_of_readAll_eq_error (h : readAll s = .error stop) :
    ∃ before cs, s = before ++ stop.rest ∧ Commands before cs ∧
      Describes cs stop.fault stop.rest := by
  fun_induction readAll s with
  | case1 s hs => cases h
  | case2 s letter t hs e he =>
    cases h
    obtain ⟨before, cs, hbefore, hcommands, hfault⟩ := commands_of_readStep_eq_error he
    have hskip := skips_trimStart s
    rw [hs, hbefore] at hskip
    obtain ⟨text, htext, hskip⟩ := hskip.cut
    exact ⟨text, cs, htext, hcommands.of_skips hskip, hfault⟩
  | case3 s letter t hs cs₁ r hstep ih =>
    obtain hrest | ⟨_, _, hpure⟩ := bind_eq_error.mp h
    case inr => cases hpure
    obtain ⟨before, cs₂, rfl, hcommands, hfault⟩ := ih hrest
    obtain ⟨item, hletter, hitem⟩ := (item_readStep hstep).cut
    have hskip := skips_trimStart s
    rw [hs, hletter] at hskip
    obtain ⟨text, htext, hskip⟩ := hskip.cut
    exact ⟨text, cs₁ ++ cs₂, htext, .item hskip hitem hcommands, hfault.append cs₁⟩

end Stopping

lemma byteSize_toList (s : String) : byteSize s.toList = s.utf8ByteSize := by
  have hlist (l : List Char) : byteSize l = (String.ofList l).utf8ByteSize := by
    induction l with
    | nil => rfl
    | cons c l ih =>
      rw [← List.singleton_append, String.ofList_append, String.utf8ByteSize_append, ← ih,
        ← String.singleton_eq_ofList, String.utf8ByteSize_singleton]
      rfl
  rw [hlist, String.ofList_toList]

/-- Where reading fails, a fault lies between two characters of the text: the part before it is read
by itself, and the fault describes the part from there on. -/
theorem read_before_fault {s : String} {e : Error} (h : read s = .error e) :
    e.offset ≤ s.utf8ByteSize ∧ ∃ before rest : String,
      s = before ++ rest ∧ before.utf8ByteSize = e.offset ∧
        ∃ cs, read before = .ok cs ∧ Describes cs e.fault rest.toList := by
  unfold read at h
  split at h
  case h_1 => cases h
  rename_i stop hstop
  cases h
  obtain ⟨before, cs, hsplit, hcommands, hfault⟩ := commands_of_readAll_eq_error hstop
  have hs : s = String.ofList before ++ String.ofList stop.rest := by
    rw [← String.ofList_append, ← hsplit, String.ofList_toList]
  have hoffset : (String.ofList before).utf8ByteSize =
      byteSize s.toList - byteSize stop.rest := by
    rw [hsplit, Text.byteSize_append, Nat.add_sub_cancel, ← byteSize_toList, String.toList_ofList]
  refine ⟨?_, String.ofList before, String.ofList stop.rest, hs, hoffset, cs, ?_, ?_⟩
  · rw [byteSize_toList]
    exact Nat.sub_le _ _
  · exact read_of_commands (by rwa [String.toList_ofList])
  · rwa [String.toList_ofList]

theorem read_before_missing_repeat :
    read "M1,2\u00a0l3,4 5e1 ." = .error ⟨.missingOperands 'l', 11⟩ ∧
      ∃ before rest : String, "M1,2\u00a0l3,4 5e1 ." = before ++ rest ∧
        before.utf8ByteSize = 11 ∧
          ∃ cs, read before = .ok cs ∧ Describes cs (.missingOperands 'l') rest.toList := by
  have hfault : (match read "M1,2\u00a0l3,4 5e1 ." with
      | .error e => some e
      | .ok _ => none) = some ⟨.missingOperands 'l', 11⟩ := by
    decide +kernel
  cases h : read "M1,2\u00a0l3,4 5e1 ." with
  | ok cs =>
    rw [h] at hfault
    cases hfault
  | error e =>
    rw [h] at hfault
    obtain rfl := Option.some.inj hfault
    exact ⟨rfl, (read_before_fault h).2⟩

end PathData

end Iconsmith
