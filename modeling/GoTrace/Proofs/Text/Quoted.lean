import GoTrace.Text.Quoted

/-!
# Quoted text can be read back

A quoted text is told from what stands behind it, whatever that is: its closing quote is the first
quote with no backslash in front, and each character between the quotes is known from the characters
that stand for it (`Quoted.encode_append_inj`). No quoted text holds a newline.

Which characters print as themselves does not matter here. All that is used of `Quoted.encodeChar`
is its three forms (`Quoted.encodeChar_cases`): a pair, the character, or its code point.
-/

namespace GoTrace

/-- A list that ends in front of the first mark is known, and so is what stands behind the mark. -/
theorem append_cons_inj {α : Type} {a : α} {as as' bs bs' : List α} (has : a ∉ as) (has' : a ∉ as')
    (h : as ++ a :: bs = as' ++ a :: bs') : as = as' ∧ bs = bs' := by
  induction as generalizing as' with
  | nil =>
    cases as' with
    | nil => exact ⟨rfl, (List.cons.inj h).2⟩
    | cons b as' => exact absurd (List.cons.inj h).1 (List.ne_of_not_mem_cons has')
  | cons b as ih =>
    cases as' with
    | nil => exact absurd (List.cons.inj h).1.symm (List.ne_of_not_mem_cons has)
    | cons b' as' =>
      obtain ⟨rfl, htail⟩ := List.cons.inj h
      obtain ⟨rfl, hbs⟩ :=
        ih (List.not_mem_of_not_mem_cons has) (List.not_mem_of_not_mem_cons has') htail
      exact ⟨rfl, hbs⟩

/-! ## Digits -/

theorem digitChar_inj {m n : Nat} (hm : m < 16) (hn : n < 16) (h : m.digitChar = n.digitChar) :
    m = n := by
  have hinj : ∀ i j : Fin 16, i.val.digitChar = j.val.digitChar → i = j := by decide
  exact Fin.mk.inj_iff.1 (hinj ⟨m, hm⟩ ⟨n, hn⟩ h)

/-- A number is known from its digits, in any base up to sixteen. -/
theorem toDigits_inj {b : Nat} (hb : 1 < b) (hmax : b ≤ 16) {m n : Nat}
    (h : Nat.toDigits b m = Nat.toDigits b n) : m = n := by
  induction m using Nat.strongRecOn generalizing n with
  | _ m ih =>
  have hm := Nat.length_toDigits_pos (b := b) (n := m / b)
  have hn := Nat.length_toDigits_pos (b := b) (n := n / b)
  rw [Nat.toDigits_eq_if hb, Nat.toDigits_eq_if hb (n := n)] at h
  split at h <;> split at h
  · exact digitChar_inj (by omega) (by omega) (List.singleton_inj.1 h)
  · have hlength := congrArg List.length h
    rw [List.length_append, List.length_singleton, List.length_singleton] at hlength
    omega
  · have hlength := congrArg List.length h
    rw [List.length_append, List.length_singleton, List.length_singleton] at hlength
    omega
  · obtain ⟨hdiv, hmod⟩ := List.append_inj' h rfl
    have hlast : m % b = n % b :=
      digitChar_inj (Nat.lt_of_lt_of_le (Nat.mod_lt m (by omega)) hmax)
        (Nat.lt_of_lt_of_le (Nat.mod_lt n (by omega)) hmax) (List.singleton_inj.1 hmod)
    have hfront := ih (m / b) (Nat.div_lt_self (by omega) hb) hdiv
    rw [← Nat.div_add_mod m b, ← Nat.div_add_mod n b, hfront, hlast]

/-- What holds of the digits below a base holds of all digits of a number. -/
theorem forall_mem_toDigits {b : Nat} (hb : 1 < b) {P : Char → Prop}
    (h : ∀ d < b, P d.digitChar) (n : Nat) : ∀ c ∈ Nat.toDigits b n, P c := by
  induction n using Nat.strongRecOn with
  | _ n ih =>
  intro c hc
  rw [Nat.toDigits_eq_if hb] at hc
  split at hc
  · exact List.mem_singleton.1 hc ▸ h n ‹_›
  · rcases List.mem_append.1 hc with hc | hc
    · exact ih (n / b) (Nat.div_lt_self (by omega) hb) c hc
    · exact List.mem_singleton.1 hc ▸ h (n % b) (Nat.mod_lt n (by omega))

namespace Quoted

/-! ## Characters -/

/-- The characters that are written as a backslash and another character. -/
def pairs : List (Char × Char) :=
  [('\\', '\\'), ('"', '"'), ('\n', 'n'), ('\r', 'r'), ('\t', 't'), ('\x00', '0')]

/-- A character is written as a pair, as itself, or as its code point. -/
theorem encodeChar_cases (c : Char) :
    (∃ d, (c, d) ∈ pairs ∧ encodeChar c = ['\\', d]) ∨
      c ≠ '\\' ∧ c ≠ '"' ∧ c ≠ '\n' ∧ encodeChar c = [c] ∨
      encodeChar c = '\\' :: 'u' :: '\x7b' :: (Nat.toDigits 16 c.toNat ++ ['\x7d']) := by
  unfold encodeChar
  split
  iterate 6 exact .inl ⟨_, by decide, rfl⟩
  case _ hslash hquote hnewline _ _ _ =>
    split
    · exact .inr (.inl ⟨hslash, hquote, hnewline, rfl⟩)
    · exact .inr (.inr rfl)

/-- The second character of a pair says which it is. -/
theorem pairs_snd_inj {c c' d : Char} (h : (c, d) ∈ pairs) (h' : (c', d) ∈ pairs) : c = c' := by
  have hall : ∀ p ∈ pairs, ∀ q ∈ pairs, p.2 = q.2 → p.1 = q.1 := by decide
  exact hall _ h _ h' rfl

/-- The second character of a pair is not that in front of a code point, and no newline. -/
theorem pairs_snd_ne {c d : Char} (h : (c, d) ∈ pairs) : d ≠ 'u' ∧ d ≠ '\n' := by
  have hall : ∀ p ∈ pairs, p.2 ≠ 'u' ∧ p.2 ≠ '\n' := by decide
  exact hall _ h

private theorem hexDigit (n : Nat) : ∀ c ∈ Nat.toDigits 16 n, c ≠ '\x7d' ∧ c ≠ '\n' :=
  forall_mem_toDigits (by decide) (by decide) n

/-- **A character is known from what is written for it**, whatever stands behind it. -/
theorem encodeChar_append_inj {c c' : Char} {rest rest' : List Char}
    (h : encodeChar c ++ rest = encodeChar c' ++ rest') : c = c' ∧ rest = rest' := by
  rcases encodeChar_cases c with ⟨d, hd, hc⟩ | ⟨hslash, -, -, hc⟩ | hc <;>
    rcases encodeChar_cases c' with ⟨d', hd', hc'⟩ | ⟨hslash', -, -, hc'⟩ | hc' <;>
    rw [hc, hc'] at h
  · simp only [List.cons_append, List.nil_append, List.cons.injEq, true_and] at h
    obtain ⟨rfl, hrest⟩ := h
    exact ⟨pairs_snd_inj hd hd', hrest⟩
  · exact absurd (List.cons.inj h).1.symm hslash'
  · exact absurd (List.cons.inj (List.cons.inj h).2).1 (pairs_snd_ne hd).1
  · exact absurd (List.cons.inj h).1 hslash
  · exact List.cons.inj h
  · exact absurd (List.cons.inj h).1 hslash
  · exact absurd (List.cons.inj (List.cons.inj h).2).1.symm (pairs_snd_ne hd').1
  · exact absurd (List.cons.inj h).1.symm hslash'
  · simp only [List.cons_append, List.append_assoc, List.nil_append, List.cons.injEq,
      true_and] at h
    have hend (n : Nat) : '\x7d' ∉ Nat.toDigits 16 n := fun hmem => (hexDigit n _ hmem).1 rfl
    obtain ⟨hdigits, hrest⟩ := append_cons_inj (hend _) (hend _) h
    exact ⟨Char.toNat_inj.1 (toDigits_inj (by decide) (by decide) hdigits), hrest⟩

/-- What is written for a character does not begin with a quote. -/
theorem encodeChar_append_ne {c : Char} {rest rest' : List Char} :
    encodeChar c ++ rest ≠ '"' :: rest' := by
  intro h
  rcases encodeChar_cases c with ⟨d, -, hc⟩ | ⟨-, hquote, -, hc⟩ | hc
  · rw [hc] at h
    exact absurd (List.cons.inj h).1 (by decide)
  · rw [hc] at h
    exact hquote (List.cons.inj h).1
  · rw [hc] at h
    exact absurd (List.cons.inj h).1 (by decide)

theorem newline_notMem_encodeChar (c : Char) : '\n' ∉ encodeChar c := by
  rcases encodeChar_cases c with ⟨d, hd, hc⟩ | ⟨-, -, hnewline, hc⟩ | hc
  · rw [hc]
    simp [(pairs_snd_ne hd).2.symm]
  · rw [hc]
    simp [hnewline.symm]
  · rw [hc]
    simp only [List.mem_cons, List.mem_append, not_or]
    exact ⟨by decide, by decide, by decide, fun hmem => (hexDigit _ _ hmem).2 rfl, by decide,
      List.not_mem_nil⟩

/-! ## Texts -/

theorem toList_encode (s : String) :
    (encode s).toList = '"' :: (s.toList.flatMap encodeChar ++ ['"']) := by
  rw [encode, String.toList_ofList]
  rfl

/-- The first quote with no backslash in front closes a quoted text. -/
theorem flatMap_encodeChar_append_inj {cs cs' rest rest' : List Char}
    (h : cs.flatMap encodeChar ++ '"' :: rest = cs'.flatMap encodeChar ++ '"' :: rest') :
    cs = cs' ∧ rest = rest' := by
  induction cs generalizing cs' with
  | nil =>
    cases cs' with
    | nil => exact ⟨rfl, (List.cons.inj h).2⟩
    | cons c' cs' =>
      rw [List.flatMap_cons, List.append_assoc] at h
      exact absurd h.symm encodeChar_append_ne
  | cons c cs ih =>
    rw [List.flatMap_cons, List.append_assoc] at h
    cases cs' with
    | nil => exact absurd h encodeChar_append_ne
    | cons c' cs' =>
      rw [List.flatMap_cons, List.append_assoc] at h
      obtain ⟨rfl, htail⟩ := encodeChar_append_inj h
      obtain ⟨rfl, hrest⟩ := ih htail
      exact ⟨rfl, hrest⟩

/-- **A text is known from its quoted form**, whatever stands behind it. -/
theorem encode_append_inj {s s' : String} {rest rest' : List Char}
    (h : (encode s).toList ++ rest = (encode s').toList ++ rest') : s = s' ∧ rest = rest' := by
  simp only [toList_encode, List.cons_append, List.append_assoc, List.nil_append, List.cons.injEq,
    true_and] at h
  obtain ⟨hchars, hrest⟩ := flatMap_encodeChar_append_inj h
  exact ⟨String.toList_inj.1 hchars, hrest⟩

/-- A quoted text stands on one line. -/
theorem newline_notMem_encode (s : String) : '\n' ∉ (encode s).toList := by
  rw [toList_encode, List.mem_cons, List.mem_append, List.mem_flatMap]
  rintro (h | ⟨c, -, hc⟩ | h)
  · exact absurd h (by decide)
  · exact newline_notMem_encodeChar c hc
  · exact absurd h (by decide)

end Quoted

end GoTrace
