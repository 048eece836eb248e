import Iconsmith.Proofs.Drawable.WellFormed

/-!
# Chains of references

A reference to a named color stands for the value of the name, which may be a reference again. Following
the references from value to value gives a chain, whose values are numbered by `link?`. A value is resolved
at the end of its chain if that is at most eight links away, and is refused otherwise. A chain that comes
back to a value has no end.
-/

namespace Iconsmith.Color

variable {t : Table} {v w name : String}

/-! ### References -/

/-- The name in a reference to a named color. -/
def referenced? (value : String) : Option String :=
  (Text.dropLeading? "@color/".toList value.toList).map String.ofList

/-- A value that is no reference to a named color, so that its chain ends with it. -/
def IsFinal (value : String) : Prop :=
  ∀ name, value ≠ "@color/" ++ name

/-- A reference to a color that the table does not name. -/
def Dangles (t : Table) (value : String) : Prop :=
  ∃ name, value = "@color/" ++ name ∧ t.get? name = none

/-- What a value stands for without a table: a literal or a color that every application has. -/
def alone (value : String) : Except Error String :=
  match value.toList with
  | '#' :: _ => ofLiteral value
  | '?' :: _ => .error (.reference (.themeAttribute value))
  | '@' :: reference =>
    match Text.dropLeading? "android:color/".toList reference with
    | some name =>
      match framework? (String.ofList name) with
      | some color => .ok color
      | none => .error (.reference (.undefinedColor value))
    | none => .error (.reference (.unsupported value))
  | _ => .error (.malformed value)

lemma referenced?_eq_some_iff : referenced? v = some name ↔ v = "@color/" ++ name := by
  rw [referenced?, Option.map_eq_some_iff]
  constructor
  · rintro ⟨rest, hrest, rfl⟩
    have htext := congrArg String.ofList (Text.eq_append_of_dropLeading? hrest)
    rwa [String.ofList_toList, String.ofList_append, String.ofList_toList] at htext
  · rintro rfl
    exact ⟨name.toList, by rw [String.toList_append, Text.dropLeading?_append], String.ofList_toList⟩

lemma isFinal_iff : IsFinal v ↔ referenced? v = none := by
  rw [Option.eq_none_iff_forall_ne_some]
  exact forall_congr' fun name => not_congr referenced?_eq_some_iff.symm

/-- A reference means the value of its name. -/
lemma meaning_reference (t : Table) (name : String) :
    meaning t ("@color/" ++ name) =
      match t.get? name with
      | some target => .alias target
      | none => .settled (.error (.reference (.undefinedColor ("@color/" ++ name)))) := by
  have hname := Text.dropLeading?_append "color/".toList name.toList
  have htext : ("@color/" ++ name).toList = '@' :: ("color/".toList ++ name.toList) := by
    rw [String.toList_append]
    rfl
  have hframework : Text.dropLeading? "android:color/".toList ("color/".toList ++ name.toList) = none :=
    rfl
  rw [meaning, htext]
  cases hget : t.get? name <;> simp only [hframework, hname, String.ofList_toList, hget]

/-- A value that is no reference means the same in every table. -/
lemma meaning_of_isFinal (t : Table) (h : IsFinal v) : meaning t v = .settled (alone v) := by
  have hnone := isFinal_iff.mp h
  rw [referenced?, Option.map_eq_none_iff] at hnone
  unfold meaning
  dsimp only
  split
  · rename_i htext
    simp only [alone, htext]
  · rename_i htext
    simp only [alone, htext]
  · rename_i reference htext
    have hreference : Text.dropLeading? "color/".toList reference = none := by
      rw [htext] at hnone
      exact hnone
    simp only [alone, htext, hreference]
    cases Text.dropLeading? "android:color/".toList reference with
    | some name => cases hcolor : framework? (String.ofList name) <;> simp only [hcolor]
    | none => rfl
  · rename_i hhash hquestion hat
    rw [alone]
    split
    · exact absurd ‹_› (hhash _)
    · exact absurd ‹_› (hquestion _)
    · exact absurd ‹_› (hat _)
    · rfl

/-! ### Links -/

/-- The value behind a reference, if its name is in the table. -/
def next? (t : Table) (value : String) : Option String :=
  (referenced? value).bind t.get?

/-- The value at a place of the chain that begins with a value. -/
def link? (t : Table) (value : String) : Nat → Option String
  | 0 => some value
  | k + 1 => (link? t value k).bind (next? t)

lemma next?_of_isFinal (h : IsFinal v) : next? t v = none := by
  rw [next?, isFinal_iff.mp h, Option.bind_none]

lemma next?_of_dangles (h : Dangles t v) : next? t v = none := by
  obtain ⟨name, hv, hname⟩ := h
  rw [next?, referenced?_eq_some_iff.mpr hv, Option.bind_some, hname]

/-- A chain ends with a value that is no reference, or with one that dangles. -/
lemma next?_isSome (hfinal : ¬ IsFinal v) (hdangles : ¬ Dangles t v) : (next? t v).isSome := by
  rw [isFinal_iff, ← ne_eq, Option.ne_none_iff_exists'] at hfinal
  obtain ⟨name, hname⟩ := hfinal
  rw [next?, hname, Option.bind_some, Option.isSome_iff_ne_none]
  exact fun hnone => hdangles ⟨name, referenced?_eq_some_iff.mp hname, hnone⟩

/-- What is behind a value of the chain is the chain that begins there. -/
lemma link?_add (k m : Nat) : link? t v (k + m) = (link? t v k).bind (link? t · m) := by
  induction m with
  | zero => exact (Option.bind_fun_some _).symm
  | succ m ih => rw [← Nat.add_assoc, link?, ih, Option.bind_assoc]; rfl

lemma link?_isSome_of_le {k m : Nat} (hkm : k ≤ m) (h : (link? t v m).isSome) :
    (link? t v k).isSome := by
  obtain ⟨d, rfl⟩ := Nat.exists_eq_add_of_le hkm
  rw [link?_add] at h
  exact Option.isSome_of_isSome_bind h

/-- A chain goes on as long as it has not come to its end. -/
lemma link?_isSome {m : Nat}
    (h : ∀ k < m, ∀ w, link? t v k = some w → ¬ IsFinal w ∧ ¬ Dangles t w) :
    (link? t v m).isSome := by
  induction m with
  | zero => rfl
  | succ m ih =>
    obtain ⟨w, hw⟩ := Option.isSome_iff_exists.mp (ih fun k hk => h k (by omega))
    obtain ⟨hfinal, hdangles⟩ := h m (by omega) w hw
    rw [link?, hw]
    exact next?_isSome hfinal hdangles

/-- A chain that comes back to a value goes on forever. -/
lemma link?_isSome_of_cycle {i j : Nat} (hij : i < j) (hback : link? t v i = link? t v j)
    (hsome : (link? t v i).isSome) (m : Nat) : (link? t v m).isSome := by
  induction m using Nat.strong_induction_on with
  | _ m ih =>
    rcases Nat.lt_or_ge m j with hm | hm
    · exact link?_isSome_of_le hm.le (hback ▸ hsome)
    · -- behind `j` the chain is what it was behind `i`
      obtain ⟨d, rfl⟩ := Nat.exists_eq_add_of_le hm
      have hearlier := ih (i + d) (by omega)
      rwa [link?_add, hback, ← link?_add] at hearlier

/-- No value of a chain without end is its end. -/
lemma not_end_of_cycle {i j k : Nat} (hij : i < j) (hback : link? t v i = link? t v j)
    (hsome : (link? t v i).isSome) (hw : link? t v k = some w) : ¬ IsFinal w ∧ ¬ Dangles t w := by
  have hnext := link?_isSome_of_cycle hij hback hsome (k + 1)
  rw [link?, hw, Option.bind_some] at hnext
  constructor
  · intro hfinal
    rw [next?_of_isFinal hfinal] at hnext
    contradiction
  · intro hdangles
    rw [next?_of_dangles hdangles] at hnext
    contradiction

/-! ### Following a chain -/

section Following

variable {n : Nat}

lemma follow_of_isFinal (h : IsFinal v) : follow t n v = alone v := by
  rw [follow.eq_def, meaning_of_isFinal t h]

lemma follow_of_dangles (h : Dangles t v) :
    follow t n v = .error (.reference (.undefinedColor v)) := by
  obtain ⟨name, rfl, hname⟩ := h
  rw [follow.eq_def, meaning_reference, hname]

lemma meaning_of_next? (h : next? t v = some w) : meaning t v = .alias w := by
  obtain ⟨name, hname, hw⟩ := Option.bind_eq_some_iff.mp h
  obtain rfl := referenced?_eq_some_iff.mp hname
  rw [meaning_reference, hw]

lemma follow_succ (h : next? t v = some w) : follow t (n + 1) v = follow t n w := by
  rw [follow, meaning_of_next? h]

lemma follow_zero (h : next? t v = some w) :
    follow t 0 v = .error (.reference (.unsupported v)) := by
  rw [follow, meaning_of_next? h]

/-- Each link of the chain takes one off the number of links that are left. -/
lemma follow_of_link? {k : Nat} (h : link? t v k = some w) :
    follow t (n + k) v = follow t n w := by
  induction k generalizing w n with
  | zero =>
    cases h
    rfl
  | succ k ih =>
    obtain ⟨u, hu, hw⟩ := Option.bind_eq_some_iff.mp h
    calc follow t (n + (k + 1)) v = follow t (n + 1 + k) v := by rw [Nat.add_assoc, Nat.add_comm 1]
      _ = follow t (n + 1) u := ih hu
      _ = follow t n w := follow_succ hw

end Following

/-! ### Resolving -/

section Resolving

variable {value : String}

lemma resolve_of_link? {k : Nat} (hk : k ≤ 8) (hv : link? t (Text.trimString value) k = some v) :
    resolve t value = follow t (8 - k) v := by
  have hfollow := follow_of_link? (n := 8 - k) hv
  rwa [Nat.sub_add_cancel hk] at hfollow

/-- A chain that has no end within eight links is refused. -/
lemma resolve_of_endless (h : ∀ k ≤ 8, ∀ v, link? t (Text.trimString value) k = some v →
      ¬ IsFinal v ∧ ¬ Dangles t v) :
    ∃ v, link? t (Text.trimString value) 8 = some v ∧
      resolve t value = .error (.reference (.unsupported v)) := by
  obtain ⟨v, hv⟩ := Option.isSome_iff_exists.mp (link?_isSome fun k hk => h k hk.le)
  obtain ⟨hfinal, hdangles⟩ := h 8 le_rfl v hv
  obtain ⟨w, hw⟩ := Option.isSome_iff_exists.mp (next?_isSome hfinal hdangles)
  exact ⟨v, hv, (resolve_of_link? le_rfl hv).trans (follow_zero hw)⟩

end Resolving

/-- The color of a value is that of the end of its chain, if this is at most eight links away. A longer
chain is refused with its eighth value, and so is one that comes back to a value. -/
theorem resolve_along_links (t : Table) (value : String) :
    let links := link? t (Text.trimString value)
    (∀ k ≤ 8, ∀ v, links k = some v → IsFinal v → resolve t value = alone v ∧
      (Text.trimString v = v → ∀ t', resolve t' v = resolve t value)) ∧
    (∀ k ≤ 8, ∀ v, links k = some v → Dangles t v →
      resolve t value = .error (.reference (.undefinedColor v))) ∧
    ((∀ k ≤ 8, ∀ v, links k = some v → ¬ IsFinal v ∧ ¬ Dangles t v) →
      ∃ v, links 8 = some v ∧ resolve t value = .error (.reference (.unsupported v))) ∧
    (∀ i j, i < j → (links i).isSome → links i = links j →
      ∃ v, links 8 = some v ∧ resolve t value = .error (.reference (.unsupported v))) ∧
    (∀ color, resolve t value = .ok color →
      Drawable.IsColor color ∧ ofLiteral ("#" ++ color) = .ok color) := by
  intro links
  refine ⟨?_, ?_, resolve_of_endless, ?_, ?_⟩
  · intro k hk v hv hfinal
    have hresolve := (resolve_of_link? hk hv).trans (follow_of_isFinal hfinal)
    refine ⟨hresolve, fun htrim t' => ?_⟩
    rw [hresolve, resolve, htrim, follow_of_isFinal hfinal]
  · intro k hk v hv hdangles
    exact (resolve_of_link? hk hv).trans (follow_of_dangles hdangles)
  · intro i j hij hsome hback
    exact resolve_of_endless fun k _ v hv => not_end_of_cycle hij hback hsome hv
  · intro color hcolor
    have hdigits := Drawable.isColor_follow hcolor
    exact ⟨hdigits, Drawable.ofLiteral_color hdigits⟩

/-- A color that is nine links away is one link too far. -/
example :
    let t : Table := .ofList [("a", "@color/b"), ("b", "@color/c"), ("c", "@color/d"), ("d", "@color/e"),
      ("e", "@color/f"), ("f", "@color/g"), ("g", "@color/h"), ("h", "@color/i"), ("i", "#123")]
    resolve t "@color/b" = .ok "FF112233" ∧
      resolve t "@color/a" = .error (.reference (.unsupported "@color/i")) := by
  decide +kernel

end Iconsmith.Color
