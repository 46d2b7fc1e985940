import GoTrace.Proofs.Grammar.File
import GoTrace.Proofs.Grammar.Order
import GoTrace.Proofs.Trace.Words

/-!
# The tokens of a trace are those of its text

A trace accounts for a text, and the tokens and comments of the text stand in it; both go through
the text from front to back, and between what they name there is nothing but whitespace. So they
name the same, provided that the trace has the comments of the text and no tokens of its own. A
file that the text spells has just these comments, and the tokens of its layout are tokens that
were read.
-/

namespace GoTrace

open String (utf8Len)

variable {table : LineTable} {stop : Offset} {front : List Char} {pending : List Comment}
  {owned : Bool} {fs : List Fragment} {ws : List (Offset × String)}

/-- A mark that is no token has no text. -/
theorem text_of_construct {m : Mark} (h : m.construct?.isSome) :
    (∃ owner text, m = .token owner text) ∨ m.kind ≠ .token ∧ m.text = "" := by
  cases m with
  | token owner text => exact .inl ⟨owner, text, rfl⟩
  | comment text | lineBreak | blankLine => cases h
  | nodeStart _ | checkpoint _ _ | nodeEnd _ => exact .inr ⟨MarkKind.noConfusion, rfl⟩

/-- What an account names first is what the text names first: both stand behind the same
whitespace. -/
theorem front_eq {text v w x rest rest' : List Char}
    (htext : text = front ++ v ++ x ++ rest) (hfirst : ∃ c ∈ x.head?, Gap.isSpace c = false)
    (htext' : text = front ++ w ++ rest') (hw : ∀ c ∈ w, Gap.isSpace c) :
    utf8Len (front ++ w) ≤ utf8Len (front ++ v) ∧
      (utf8Len (front ++ w) = utf8Len (front ++ v) → w = v) := by
  obtain ⟨e, rfl, -⟩ := exists_space_append htext hfirst htext' hw
  rw [← List.append_assoc, String.utf8Len_append (front ++ w)]
  refine ⟨Nat.le_add_right _ _, fun hlen => ?_⟩
  rw [String.utf8Len_eq_zero.1 (by omega : utf8Len e = 0), List.append_nil]

/-- **An account of a text has its tokens**, if it has its comments and no tokens of its own. -/
theorem words_of_accounts (h : Accounts table stop front pending owned fs)
    (hstop : stop.toNat = table.size) (hspells : Spells table.text.toList front pending ws)
    (hsub : ∀ w ∈ fs.filterMap Fragment.word?, utf8Len front ≤ w.1.toNat → w ∈ ws) :
    fs.filterMap Fragment.word? = ws := by
  induction h generalizing ws with
  | @done front rest owned htext hlen =>
    rw [LineTable.size, utf8ByteSize_eq, ← hlen] at hstop
    cases hspells with
    | done _ _ => rfl
    | word htext' _ hfirst _ _ =>
      have hpos := utf8Len_pos_of_first hfirst
      rw [htext', String.utf8Len_append, String.utf8Len_append, String.utf8Len_append] at hstop
      omega
  | @mark front w rest pending owned m p gs fs htext hblank hmark hp hplace next ih =>
    obtain ⟨hw, _, -, hmarkers⟩ := hblank
    rw [List.filterMap_append, words_markers hmarkers, List.nil_append] at hsub ⊢
    rcases text_of_construct hmark with ⟨owner, text, rfl⟩ | ⟨hkind, hempty⟩
    · have hword : Fragment.word? ⟨.token owner text, p⟩ = some (p.offset, text) := rfl
      rw [List.filterMap_cons_some hword] at hsub ⊢
      have hmem : (p.offset, text) ∈ ws := by
        refine hsub _ List.mem_cons_self ?_
        rw [hplace, String.utf8Len_append]
        exact Nat.le_add_right _ _
      rw [List.append_assoc _ _ rest] at htext
      cases hspells with
      | done _ _ => cases hmem
      | comment htext' _ hfirst _ _ next' =>
        have hle := next'.bounds.2 _ hmem
        have hpos := utf8Len_pos_of_first hfirst
        have := (front_eq htext' hfirst htext hw).1
        rw [String.utf8Len_append, hplace] at hle
        omega
      | @word _ v rest' place word _ words htext' hv hfirst hplace' next' =>
        have hle := (front_eq htext' hfirst htext hw).1
        have hpos := utf8Len_pos_of_first hfirst
        rcases List.mem_cons.1 hmem with heq | hlater
        · obtain ⟨rfl, rfl⟩ := Prod.mk.inj heq
          obtain rfl := (front_eq htext' hfirst htext hw).2 (by rw [← hplace, hplace'])
          rw [ih next' fun u hu hule => ?_]
          rcases List.mem_cons.1 (hsub u (List.mem_cons_of_mem _ hu) (by
            rw [String.utf8Len_append, String.utf8Len_append] at hule
            omega)) with rfl | hmem
          · rw [String.utf8Len_append, hplace, Mark.text] at hule
            omega
          · exact hmem
        · have := next'.bounds.2 _ hlater
          rw [String.utf8Len_append, hplace] at this
          omega
    · rw [List.filterMap_cons_none (Fragment.word?_eq_none hkind)] at hsub ⊢
      rw [hempty, String.toList_empty, List.append_nil] at ih htext
      refine ih (hspells.skip htext hw) fun u hu hle => hsub u hu ?_
      rw [String.utf8Len_append] at hle
      omega
  | @comment front w rest c pending owned p gs fs htext hblank hp hplace hstart hstop' next ih =>
    obtain ⟨hw, _, -, hmarkers⟩ := hblank
    rw [List.filterMap_append, words_markers hmarkers, List.nil_append,
      List.filterMap_cons_none (Fragment.word?_eq_none MarkKind.noConfusion)] at hsub ⊢
    rw [List.append_assoc _ _ rest] at htext
    cases hspells with
    | @comment _ v rest' _ _ _ htext' _ hfirst hstart' _ next' =>
      obtain rfl := (front_eq htext' hfirst htext hw).2 (by rw [← hplace, ← hstart, hstart'])
      refine ih next' fun u hu hle => hsub u hu ?_
      rw [String.utf8Len_append, String.utf8Len_append] at hle
      omega
    | word htext' _ hfirst _ next' =>
      have hle := next'.bounds.1 c List.mem_cons_self
      have hpos := utf8Len_pos_of_first hfirst
      have := (front_eq htext' hfirst htext hw).1
      rw [String.utf8Len_append, hstart, hplace] at hle
      omega

/-- A file that has a trace over the text that spells it asks for just the tokens of the text. -/
theorem words_of_events {text : String} {file : File} {options : Options} {fragments : List Fragment}
    (hparse : parse text = .ok file) (h : file.trace (.ofString text) options = .ok fragments) :
    Event.words file.events = words (tokens text) := by
  obtain ⟨rows, q, hlayout, -, hstop, hrows, -, hspells⟩ := reads_of_parse hparse
  rw [← words_of_trace h]
  refine words_of_accounts (File.accounts_of_trace h) hstop hspells fun w hw _ => ?_
  rw [words_of_trace h, File.events, hlayout, Layout.words_node] at hw
  exact hrows.words_subset hspells.ordered _ _ hw

/-- **The tokens of a trace are those of its text.** Where a text spells a file and the file has a
trace over it, the texts and offsets of the token fragments are, in order, those of the tokens of
the text, less the implicit semicolons and the end. -/
theorem trace_tokens_eq {text : String} {file : File} {options : Options}
    {fragments : List Fragment} (hparse : parse text = .ok file)
    (h : file.trace (.ofString text) options = .ok fragments) :
    fragments.filterMap Fragment.word? = words (tokens text) := by
  rw [words_of_trace h, words_of_events hparse h]

/-- A text with a call whose last argument has dots, comments, and a character of two bytes. -/
def spreadText : String := "package p /* é */\n\nfunc f() \x7b\n\tg(a, b...) // é\n\x7d\n"

/-- `spreadText` spells a file, and the file has a trace. -/
theorem exists_trace_spreadText :
    ∃ file fragments, parse spreadText = .ok file ∧
      file.trace (.ofString spreadText) {} = .ok fragments := by
  have hok : ((parse spreadText).toOption.bind fun file =>
      (file.trace (.ofString spreadText) {}).toOption).isSome := by decide +kernel
  obtain ⟨fragments, h⟩ := Option.isSome_iff_exists.1 hok
  obtain ⟨file, hfile, hfragments⟩ := Option.bind_eq_some_iff.1 h
  exact ⟨file, fragments, ok_of_toOption hfile, ok_of_toOption hfragments⟩

/-- The tokens of the trace of `spreadText` are those of `spreadText`. -/
theorem trace_tokens_spreadText :
    ∃ file fragments, parse spreadText = .ok file ∧
      file.trace (.ofString spreadText) {} = .ok fragments ∧
      fragments.filterMap Fragment.word? = words (tokens spreadText) := by
  obtain ⟨file, fragments, hparse, h⟩ := exists_trace_spreadText
  exact ⟨file, fragments, hparse, h, trace_tokens_eq hparse h⟩

end GoTrace
