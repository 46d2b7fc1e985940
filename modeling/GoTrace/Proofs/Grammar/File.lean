import GoTrace.Proofs.Grammar.Stmts
import GoTrace.Proofs.Token.Spelling

/-!
# What the parser reads

The rules of every level read what they return, by induction on the level: those of level zero
return nothing, and the others are made of rules of the level below. So the tree of a file is read
from its tokens, all of them but the one for the end of the text, which has the last comments.
-/

namespace GoTrace

/-! ## All levels -/

/-- The rules that refuse to go deeper read whatever they return, which is nothing. -/
theorem sound_refusing : Nested.refusing.Sound where
  type h := absurd h Parser.not_yields_failHere
  expr h := absurd h Parser.not_yields_failHere
  operand h := absurd h Parser.not_yields_failHere
  literal h := absurd h Parser.not_yields_failHere
  block h := absurd h Parser.not_yields_failHere
  ifStmt h := absurd h Parser.not_yields_failHere
  stmt h := absurd h Parser.not_yields_failHere
  stmts h := absurd h Parser.not_yields_failHere

/-- The rules of every level read what they return. -/
theorem sound_level (depth : Nat) : (Nested.level depth).Sound := by
  induction depth with
  | zero => exact sound_refusing
  | succ depth sound =>
    exact {
      type := Grammar.lays_type sound
      expr := Grammar.lays_expr sound
      operand := Grammar.lays_unary sound
      literal := Grammar.reads_literal sound
      block := Grammar.lays_block sound
      ifStmt := Grammar.lays_ifStmt sound
      stmt := Grammar.lays_stmt sound
      stmts := Grammar.readsLines_stmts sound }

namespace Grammar

open GoTrace.Parser

variable {rules : Nested} (sound : rules.Sound) {ctx : ParseContext} {st st' : ParseState}

/-! ## Declarations -/

include sound in
theorem lays_funcDecl : (funcDecl rules).Lays FuncDecl.layout := by
  intro ctx st x st' h
  obtain ⟨func, _, hfunc, h⟩ := yields_bind.1 h
  replace hfunc := marks_of_expectKeyword hfunc
  have h := (yields_peek (peeks_nextIsOp _)).1 h
  obtain ⟨receiver?, _, hreceiver, h⟩ := yields_ite_bind.1 h
  obtain ⟨name, _, hname, h⟩ := yields_bind.1 h
  have h := (yields_peek (peeks_nextIsOp _)).1 h
  split at h
  · exact absurd h not_yields_failHere
  obtain ⟨type, _, htype, h⟩ := yields_bind.1 h
  have h := (yields_peek (peeks_nextIsOp _)).1 h
  obtain ⟨body?, _, hbody, h⟩ := yields_ite_bind.1 h
  obtain ⟨rfl, rfl⟩ := yields_pure.1 h
  replace hreceiver := readsOpt_of_ite (lays_parameters sound) hreceiver
  replace hbody := readsOpt_of_ite sound.block hbody
  obtain ⟨-, st₁, hparams, hresults⟩ := reads_signature sound htype
  rw [FieldList.layout?_eq_map] at hresults
  refine .intro (hfunc.opens rfl) (.token hfunc rfl rfl (.check (.itemOpt hreceiver (.check ?_))))
  refine .item (lays_expectIdent hname) (.check (.item hparams (.check ?_)))
  exact .itemOpt hresults (.check (.itemOpt hbody .done))

include sound in
theorem lays_decl : (decl rules).Lays Decl.layout := by
  intro ctx st x st' h
  have h := (yields_peek peeks_peekKeyword?).1 h
  split at h
  · obtain ⟨func, _, hfunc, h⟩ := yields_bind.1 h
    obtain ⟨rfl, rfl⟩ := yields_pure.1 h
    exact lays_funcDecl sound hfunc
  all_goals try exact absurd h not_yields_unexpected
  all_goals
    obtain ⟨decl, _, hdecl, h⟩ := yields_bind.1 h
    obtain ⟨rfl, rfl⟩ := yields_pure.1 h
    exact lays_genDecl sound hdecl

include sound in
theorem reads_declLine {x : Decl} (h : (declLine rules).Yields ctx st x st') :
    ∃ st₁, x.layout.Reads st st₁ ∧ Skips st₁ st' := by
  obtain ⟨decl, st₁, hdecl, h⟩ := yields_bind.1 h
  obtain ⟨_, _, hline, h⟩ := yields_bind.1 h
  obtain ⟨rfl, rfl⟩ := yields_pure.1 h
  exact ⟨st₁, lays_decl sound hdecl, skips_of_endOfDecl hline⟩

/-! ## Files -/

include sound in
/-- A file is read, and then the end of the text is taken. -/
theorem reads_file {x : File} (h : (file rules).Yields ctx st x st') :
    ∃ p t rows, x.layout = .node .file x.span rows ∧ x.span = ⟨.zero, t.span.stop⟩ ∧
      ReadsRows true false rows ⟨.zero, st⟩ p ∧ Takes p.state t st' ∧ t.kind = .eof ∧
      x.comments = st'.comments.toList := by
  obtain ⟨package, _, hpackage, h⟩ := yields_bind.1 h
  obtain ⟨name, _, hname, h⟩ := yields_bind.1 h
  obtain ⟨_, _, hline, h⟩ := yields_bind.1 h
  obtain ⟨decls, st₁, hdecls, h⟩ := yields_bind.1 h
  obtain ⟨t, _, ht, h⟩ := yields_bind.1 h
  obtain ⟨state, _, hstate, h⟩ := yields_bind.1 h
  obtain ⟨rfl, rfl⟩ := yields_pure.1 h
  obtain ⟨rfl, rfl⟩ := yields_get.1 hstate
  replace hpackage := marks_of_expectKeyword hpackage
  replace hname := lays_expectIdent hname
  replace ht := takes_of_take ht
  have hlines := readsLines_of_many peeks_atEnd (fun _ => reads_declLine sound) hdecls
  have hend := done_of_many peeks_atEnd hdecls
  have hkind : t.kind = .eof := by
    rw [ParseState.nextKind?, ht.tokens] at hend
    exact beq_iff_eq.1 hend
  refine ⟨⟨stopOfLast (decls.map Decl.layout) name.layout.stop, st₁⟩, t, _, rfl, rfl, ?_, ht, hkind,
    rfl⟩
  refine .token hpackage rfl rfl (.check (.item hname (.check ?_)))
  exact .skip (skips_of_endOfDecl hline) (hlines.list .done)

end Grammar

/-- **A file that a text spells is read from its tokens**, all of them but the one for the end of
the text, and its comments and tokens are all that stands in the text. -/
theorem reads_of_parse {text : String} {file : File} (h : parse text = .ok file) :
    ∃ rows q, file.layout = .node .file file.span rows ∧ file.span.start = .zero ∧
      file.span.stop.toNat = text.utf8ByteSize ∧
      ReadsRows true false rows ⟨.zero, ⟨tokens text, #[], .zero⟩⟩ q ∧ words q.state.tokens = [] ∧
      Spells text.toList [] file.comments (words (tokens text)) := by
  rw [parse, parseTokens] at h
  split at h
  · rename_i x st hx
    obtain rfl := Except.ok.inj h
    obtain ⟨q, t, rows, hlayout, hspan, hrows, ht, hkind, hcomments⟩ :=
      Grammar.reads_file (sound_level maxNesting) hx
    obtain ⟨ts, hts⟩ := hrows.consumes
    have htokens : tokens text = ts ++ t :: st.tokens := by
      rw [← ht.tokens]
      exact hts.tokens
    obtain ⟨hnone, hstop, hspells⟩ := spells_of_tokens htokens hkind hts.noError
    rw [hnone] at htokens
    refine ⟨rows, q, hlayout, by rw [hspan], by rw [hspan, hstop], hrows, ?_, ?_⟩
    · rw [ht.tokens, hnone, words_singleton, if_neg (by rw [hkind]; exact Bool.false_ne_true)]
    · have hall : x.comments = (tokens text).flatMap (·.comments) := by
        rw [hcomments, (hts.append ht.consumes).comments, htokens]
        rfl
      rw [hall]
      exact hspells
  · cases h

end GoTrace
