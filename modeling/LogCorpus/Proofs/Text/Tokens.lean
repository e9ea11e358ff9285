/-
Tokens split a message without loss.

A message is cut into runs wherever two neighbours are not both word characters.  So the
runs of a message that is cut at such a place are those of its parts, a run of two or
more characters is a word that cannot be made longer, and a run that is dropped is a
single skipped character.
-/
import LogCorpus.Proofs.Lists
import LogCorpus.Text.Tokens
import Mathlib.Data.List.SplitBy

namespace LogCorpus

/-! ### Characters -/

theorem wideBlanks_not_alphanumeric :
    ∀ point ∈ wideBlanks, inRanges point alphanumericRanges = false := by
  decide +kernel

/-- No blank character is a letter or a number. -/
theorem isAlphanumeric_of_isBlank {c : Char} (hblank : isBlank c = true) :
    isAlphanumeric c = false := by
  have hascii : ∀ point ∈ List.range' 9 5, inRanges point alphanumericRanges = false := by
    decide +kernel
  simp only [isBlank, Bool.or_eq_true, decide_eq_true_eq, Bool.and_eq_true,
    List.contains_iff_mem] at hblank
  rcases hblank with (rfl | hcontrol) | hwide
  · decide +kernel
  · exact hascii c.toNat (List.mem_range'_1.mpr (by omega))
  · exact wideBlanks_not_alphanumeric c.toNat hwide

/-- Skipped characters are no word characters. -/
theorem isWordChar_of_isSkipped {c : Char} (hskipped : isSkipped c = true) :
    isWordChar c = false := by
  rw [isSkipped, Bool.or_eq_true, decide_eq_true_eq] at hskipped
  rcases hskipped with hblank | rfl
  · have hline : c ≠ '_' := by
      rintro rfl
      exact absurd hblank (by decide)
    rw [isWordChar, isAlphanumeric_of_isBlank hblank, decide_eq_false hline]
    rfl
  · decide +kernel

/-! ### Runs -/

theorem flatten_runs (text : List Char) : (runs text).flatten = text :=
  List.flatten_splitBy _ text

/-- A text may be cut wherever two neighbours are not both word characters. -/
theorem runs_append {before behind : List Char}
    (hborder : ∀ c ∈ before.getLast?, ∀ d ∈ behind.head?,
      (isWordChar c && isWordChar d) = false) :
    runs (before ++ behind) = runs before ++ runs behind :=
  List.splitBy_append hborder

/-- Runs in front and runs behind are those of what they are made of. -/
theorem runs_flatten_of_eq_append {text : List Char} {front back : List (List Char)}
    (hruns : runs text = front ++ back) :
    runs front.flatten = front ∧ runs back.flatten = back := by
  obtain ⟨_, hnil, hchains, hborders⟩ := List.splitBy_eq_iff.mp hruns
  rw [List.mem_append, not_or] at hnil
  obtain ⟨hfront, hback, _⟩ := List.isChain_append.mp hborders
  exact ⟨List.splitBy_flatten hnil.1
      (fun run hrun => hchains run (List.mem_append_left back hrun)) hfront,
    List.splitBy_flatten hnil.2
      (fun run hrun => hchains run (List.mem_append_right front hrun)) hback⟩

/-- A word: some word characters and nothing else. -/
structure IsWord (run : List Char) : Prop where
  ne_nil : run ≠ []
  isWordChar_of_mem : ∀ c ∈ run, isWordChar c = true

/-- A sign: a single character that is neither a word character nor skipped. -/
def IsSign (run : List Char) : Prop :=
  ∃ c, run = [c] ∧ isWordChar c = false ∧ isBlank c = false ∧ c ≠ '"'

theorem runs_of_isWord {run : List Char} (hrun : IsWord run) : runs run = [run] := by
  apply List.splitBy_of_isChain hrun.ne_nil
  apply List.Pairwise.isChain
  apply List.pairwise_of_forall_mem_list
  intro c hc d hd
  rw [hrun.isWordChar_of_mem c hc, hrun.isWordChar_of_mem d hd]
  rfl

/-- A run is a word or a single other character. -/
theorem isWord_or_eq_singleton {run : List Char} (hne : run ≠ [])
    (hchain : run.IsChain fun c d => isWordChar c && isWordChar d) :
    IsWord run ∨ ∃ c, run = [c] ∧ isWordChar c = false := by
  induction run with
  | nil => exact absurd rfl hne
  | cons c rest ih =>
      cases rest with
      | nil =>
          by_cases hc : isWordChar c
          · exact .inl ⟨hne, by simpa using hc⟩
          · exact .inr ⟨c, rfl, by simpa using hc⟩
      | cons d rest =>
          obtain ⟨hpair, htail⟩ := List.isChain_cons_cons.mp hchain
          rw [Bool.and_eq_true] at hpair
          left
          rcases ih (List.cons_ne_nil d rest) htail with hword | ⟨e, he, hother⟩
          · exact ⟨hne, List.forall_mem_cons.mpr ⟨hpair.1, hword.isWordChar_of_mem⟩⟩
          · rw [(List.cons.inj he).1, hother] at hpair
            cases hpair.2

theorem isWord_or_eq_singleton_of_mem_runs {text run : List Char} (hrun : run ∈ runs text) :
    IsWord run ∨ ∃ c, run = [c] ∧ isWordChar c = false :=
  isWord_or_eq_singleton (List.ne_nil_of_mem_splitBy hrun) (List.isChain_of_mem_splitBy hrun)

/-! ### Tokens -/

/-- The tokens of a text, as runs. -/
def tokenRuns (text : List Char) : List (List Char) :=
  (runs text).filter isToken

theorem wordTokens_eq (text : String) :
    wordTokens text = (tokenRuns text.toList).map String.ofList := rfl

theorem tokenRuns_append {before behind : List Char}
    (hborder : ∀ c ∈ before.getLast?, ∀ d ∈ behind.head?,
      (isWordChar c && isWordChar d) = false) :
    tokenRuns (before ++ behind) = tokenRuns before ++ tokenRuns behind := by
  rw [tokenRuns, runs_append hborder, List.filter_append]
  rfl

theorem isToken_of_isWord {run : List Char} (hrun : IsWord run) : isToken run = true := by
  obtain ⟨c, hc⟩ := List.exists_mem_of_ne_nil run hrun.ne_nil
  exact List.any_eq_true.mpr ⟨c, hc, by simp [hrun.isWordChar_of_mem c hc]⟩

theorem tokenRuns_of_isWord {run : List Char} (hrun : IsWord run) : tokenRuns run = [run] := by
  rw [tokenRuns, runs_of_isWord hrun, List.filter_cons_of_pos (isToken_of_isWord hrun),
    List.filter_nil]

/-- A character that is no word character is a token unless it is skipped. -/
theorem tokenRuns_singleton {c : Char} (hc : isWordChar c = false) :
    tokenRuns [c] = if isSkipped c then [] else [[c]] := by
  have hrun : runs [c] = [[c]] := rfl
  cases hskipped : isSkipped c <;> simp [tokenRuns, hrun, isToken, hc, hskipped]

/-- A token is a word or a sign. -/
theorem isWord_or_isSign_of_mem_tokenRuns {text token : List Char}
    (htoken : token ∈ tokenRuns text) : IsWord token ∨ IsSign token := by
  obtain ⟨hrun, hkept⟩ := List.mem_filter.mp htoken
  rcases isWord_or_eq_singleton_of_mem_runs hrun with hword | ⟨c, rfl, hc⟩
  · exact .inl hword
  · right
    simp only [isToken, List.any_cons, List.any_nil, hc, isSkipped, Bool.or_false,
      Bool.false_or, Bool.not_eq_true', Bool.or_eq_false_iff, decide_eq_false_iff_not] at hkept
    exact ⟨c, rfl, hc, hkept⟩

/-- Of a run, either everything is kept or everything is skipped. -/
theorem filter_not_isSkipped {text run : List Char} (hrun : run ∈ runs text) :
    (run.filter fun c => !isSkipped c) = if isToken run then run else [] := by
  rcases isWord_or_eq_singleton_of_mem_runs hrun with hword | ⟨c, rfl, hc⟩
  · rw [if_pos (isToken_of_isWord hword), List.filter_eq_self]
    intro c hc
    cases hskipped : isSkipped c with
    | false => rfl
    | true =>
        have hother := isWordChar_of_isSkipped hskipped
        rw [hword.isWordChar_of_mem c hc] at hother
        cases hother
  · cases hskipped : isSkipped c <;> simp [isToken, hc, hskipped]

/-- The tokens put together are the text without its skipped characters. -/
theorem flatten_tokenRuns (text : List Char) :
    (tokenRuns text).flatten = text.filter fun c => !isSkipped c := by
  have hpieces {pieces : List (List Char)} (hmem : ∀ run ∈ pieces, run ∈ runs text) :
      (pieces.filter isToken).flatten = pieces.flatten.filter fun c => !isSkipped c := by
    induction pieces with
    | nil => rfl
    | cons run rest ih =>
        rw [List.flatten_cons, List.filter_append,
          filter_not_isSkipped (hmem run List.mem_cons_self),
          ← ih fun other hother => hmem other (List.mem_cons_of_mem run hother),
          List.filter_cons]
        split <;> rfl
  rw [tokenRuns, hpieces fun _ hrun => hrun, flatten_runs]

/-- Between two texts a token cannot be made longer: a word has no word character beside
it, and a sign is a token of its own. -/
inductive IsTokenBetween (before token behind : List Char) : Prop where
  | word (isWord : IsWord token)
      (before_ends : ∀ c ∈ before.getLast?, isWordChar c = false)
      (behind_starts : ∀ c ∈ behind.head?, isWordChar c = false)
  | sign (isSign : IsSign token)

/-- Where two runs meet, the characters are not both word characters. -/
theorem border_of_runs {text : List Char} {front back : List (List Char)}
    (hruns : runs text = front ++ back) :
    ∀ c ∈ front.flatten.getLast?, ∀ d ∈ back.flatten.head?,
      (isWordChar c && isWordChar d) = false := by
  obtain ⟨_, _, _, hborders⟩ := List.splitBy_eq_iff.mp hruns
  obtain ⟨_, _, hmeet⟩ := List.isChain_append.mp hborders
  intro c hc d hd
  rcases List.eq_nil_or_concat front with rfl | ⟨others, last, rfl⟩
  · cases hc
  cases back with
  | nil => cases hd
  | cons first rest =>
      obtain ⟨hlast, hfirst, hborder⟩ := hmeet last (by simp) first (by simp)
      rw [List.concat_eq_append, List.flatten_append, List.flatten_singleton,
        List.getLast?_append, List.getLast?_eq_some_getLast hlast] at hc
      rw [List.flatten_cons, List.head?_append, List.head?_eq_some_head hfirst] at hd
      rwa [← Option.some.inj hc, ← Option.some.inj hd]

/-- A word among runs has no word character beside it. -/
theorem isTokenBetween_of_isWord {text token : List Char} {front back : List (List Char)}
    (hruns : runs text = front ++ token :: back) (htoken : IsWord token) :
    IsTokenBetween front.flatten token back.flatten := by
  have hjoined : runs text = (front ++ [token]) ++ back := by
    rw [hruns, List.append_assoc, List.singleton_append]
  refine .word htoken ?_ ?_
  · intro c hc
    obtain ⟨d, rest, rfl⟩ := List.exists_cons_of_ne_nil htoken.ne_nil
    have hborder := border_of_runs hruns c hc d (by simp)
    rwa [htoken.isWordChar_of_mem d List.mem_cons_self, Bool.and_true] at hborder
  · intro d hd
    have hc := List.getLast_mem htoken.ne_nil
    have hborder := border_of_runs hjoined (token.getLast htoken.ne_nil)
      (by simp [List.getLast?_eq_some_getLast htoken.ne_nil]) d hd
    rwa [htoken.isWordChar_of_mem _ hc, Bool.true_and] at hborder

/-- Every token has its place: the tokens before it and behind it are those of the texts
in front of it and behind it, and there it cannot be made longer. -/
theorem exists_place_of_tokenRuns {text token : List Char} {front back : List (List Char)}
    (htokens : tokenRuns text = front ++ token :: back) :
    ∃ before behind, text = before ++ token ++ behind ∧ tokenRuns before = front ∧
      tokenRuns behind = back ∧ IsTokenBetween before token behind := by
  obtain ⟨first, others, hall, hfirst, hothers⟩ := List.filter_eq_append_iff.mp htokens
  obtain ⟨skipped, last, rfl, hskipped, _, hlast⟩ := List.filter_eq_cons_iff.mp hothers
  have hruns : runs text = (first ++ skipped) ++ token :: last := by
    rw [hall, List.append_assoc]
  obtain ⟨hbefore, htail⟩ := runs_flatten_of_eq_append hruns
  rw [← List.singleton_append] at htail
  have hbehind := (runs_flatten_of_eq_append htail).2
  refine ⟨(first ++ skipped).flatten, last.flatten, ?_, ?_, ?_, ?_⟩
  · rw [← flatten_runs text, hruns, List.flatten_append, List.flatten_cons, List.append_assoc]
  · rw [tokenRuns, hbefore, List.filter_append, hfirst, List.filter_eq_nil_iff.mpr hskipped,
      List.append_nil]
  · rw [tokenRuns, hbehind, hlast]
  · have hmem : token ∈ tokenRuns text := by
      rw [htokens]
      exact List.mem_append_right front List.mem_cons_self
    rcases isWord_or_isSign_of_mem_tokenRuns hmem with hword | hsign
    · exact isTokenBetween_of_isWord hruns hword
    · exact .sign hsign

theorem tokenRuns_of_isSign {token : List Char} (htoken : IsSign token) :
    tokenRuns token = [token] := by
  obtain ⟨c, rfl, hc, hblank, hquote⟩ := htoken
  have hkept : isSkipped c = false := by
    rw [isSkipped, hblank, decide_eq_false hquote]
    rfl
  rw [tokenRuns_singleton hc, hkept, if_neg Bool.false_ne_true]

/-- Words and signs with blanks between them are read as they are. -/
theorem tokenRuns_intercalate {tokens : List (List Char)}
    (htokens : ∀ token ∈ tokens, IsWord token ∨ IsSign token) :
    tokenRuns ([' '].intercalate tokens) = tokens := by
  have hblank : isWordChar ' ' = false := by
    decide +kernel
  have hspace : tokenRuns [' '] = [] := by
    rw [tokenRuns_singleton hblank]
    rfl
  have hone {token : List Char} (htoken : IsWord token ∨ IsSign token) :
      tokenRuns token = [token] :=
    htoken.elim tokenRuns_of_isWord tokenRuns_of_isSign
  induction tokens with
  | nil => rfl
  | cons token rest ih =>
      obtain ⟨htoken, hrest⟩ := List.forall_mem_cons.mp htokens
      cases rest with
      | nil => rw [List.intercalate_singleton, hone htoken]
      | cons second others =>
          rw [List.intercalate_cons_cons, List.append_assoc, tokenRuns_append,
            tokenRuns_append, hone htoken, hspace, ih hrest]
          · rfl
          · intro c hc d hd
            have hsame : ' ' = c := Option.some.inj hc
            rw [← hsame, hblank, Bool.false_and]
          · intro c hc d hd
            have hsame : ' ' = d := Option.some.inj hd
            rw [← hsame, hblank, Bool.and_false]

/-! ### One pass -/

namespace TokenScan

/-- What a scan holds after some text: the tokens of a front that ends in no word
character, and the word characters behind this front. -/
structure Covers (text : List Char) (scan : TokenScan) : Prop where
  exists_front : ∃ front, text = front ++ scan.word.toList ∧
    (∀ c ∈ front.getLast?, isWordChar c = false) ∧
    scan.tokens.toList = (tokenRuns front).map String.ofList
  isWordChar_of_mem : ∀ c ∈ scan.word.toList, isWordChar c = true

variable {text : List Char} {scan : TokenScan}

theorem covers_nil : Covers [] {} where
  exists_front := ⟨[], rfl, by simp, rfl⟩
  isWordChar_of_mem := by simp

/-- When the word is ended, the tokens are those of the whole text. -/
theorem Covers.tokens_endWord (hscan : scan.Covers text) :
    scan.endWord.tokens.toList = (tokenRuns text).map String.ofList := by
  obtain ⟨front, htext, hfront, htokens⟩ := hscan.exists_front
  rw [endWord]
  by_cases hword : scan.word.isEmpty
  · rw [if_pos hword, htokens, htext, String.isEmpty_iff.mp hword]
    simp
  · have hne : scan.word.toList ≠ [] := by
      simpa [String.isEmpty_iff] using hword
    have hborder : ∀ c ∈ front.getLast?, ∀ d ∈ scan.word.toList.head?,
        (isWordChar c && isWordChar d) = false := by
      intro c hc d _
      rw [hfront c hc, Bool.false_and]
    rw [if_neg hword, htext, tokenRuns_append hborder,
      tokenRuns_of_isWord ⟨hne, hscan.isWordChar_of_mem⟩, Array.toList_push, htokens]
    simp

/-- Behind a character that is no word character there is no word. -/
theorem covers_of_word_eq_empty (hword : scan.word = "")
    (htext : ∀ c ∈ text.getLast?, isWordChar c = false)
    (htokens : scan.tokens.toList = (tokenRuns text).map String.ofList) :
    scan.Covers text where
  exists_front := ⟨text, by rw [hword]; simp, htext, htokens⟩
  isWordChar_of_mem := by simp [hword]

theorem word_endWord (scan : TokenScan) : scan.endWord.word = "" := by
  rw [endWord]
  split
  · next hempty => exact String.isEmpty_iff.mp hempty
  · rfl

theorem Covers.step (hscan : scan.Covers text) (c : Char) :
    (scan.step c).Covers (text ++ [c]) := by
  rw [TokenScan.step]
  by_cases hc : isWordChar c
  · rw [if_pos hc]
    obtain ⟨front, htext, hfront, htokens⟩ := hscan.exists_front
    refine ⟨⟨front, ?_, hfront, htokens⟩, ?_⟩
    · simp [htext]
    · simpa [or_imp, forall_and, hc] using hscan.isWordChar_of_mem
  · rw [if_neg hc]
    rw [Bool.not_eq_true] at hc
    have hborder : ∀ d ∈ text.getLast?, ∀ e ∈ [c].head?,
        (isWordChar d && isWordChar e) = false := by
      intro d _ e he
      have hsame : c = e := Option.some.inj he
      rw [← hsame, hc, Bool.and_false]
    have hlast : ∀ d ∈ (text ++ [c]).getLast?, isWordChar d = false := by
      simpa using hc
    have htokens : (tokenRuns (text ++ [c])).map String.ofList =
        scan.endWord.tokens.toList ++
          (if isSkipped c then [] else [String.singleton c]) := by
      rw [tokenRuns_append hborder, tokenRuns_singleton hc, List.map_append,
        hscan.tokens_endWord]
      split <;> rfl
    cases hskipped : isSkipped c with
    | true =>
        refine covers_of_word_eq_empty scan.word_endWord hlast ?_
        rw [htokens, hskipped]
        simp
    | false =>
        refine covers_of_word_eq_empty scan.word_endWord hlast ?_
        rw [htokens, hskipped]
        simp

theorem covers_foldl (text : List Char) : (text.foldl TokenScan.step {}).Covers text :=
  foldl_of_step Covers.step covers_nil text

end TokenScan

/-- One pass finds the same tokens. -/
theorem scanTokens_eq (text : String) : scanTokens text = wordTokens text :=
  (TokenScan.covers_foldl text.toList).tokens_endWord

/-- Tokens split a message without loss, and a pass that carries a word finds them.  Put
together they are the message without its blanks and double quotes.  Every token has its
place in the message: the tokens before and behind it are those of the text in front of it
and behind it, and it is a sign or a word that cannot be made longer there.  And tokens
that are joined by spaces are read as they are. -/
theorem wordTokens_split (text : String) :
    let tokens := wordTokens text
    scanTokens text = tokens ∧
      String.join tokens =
        String.ofList (text.toList.filter fun c => !(isBlank c || c = '"')) ∧
      (∀ front token back, tokens = front ++ token :: back →
        ∃ before behind, text = before ++ token ++ behind ∧ wordTokens before = front ∧
          wordTokens behind = back ∧
          IsTokenBetween before.toList token.toList behind.toList) ∧
      wordTokens (" ".intercalate tokens) = tokens := by
  intro tokens
  have htexts (texts : List (List Char)) :
      (texts.map String.ofList).map String.toList = texts := by
    simp
  refine ⟨scanTokens_eq text, ?_, ?_, ?_⟩
  · rw [← String.toList_inj, String.toList_join, String.toList_ofList]
    change ((tokenRuns text.toList).map String.ofList).flatMap String.toList = _
    rw [List.flatMap_def, htexts, flatten_tokenRuns]
    rfl
  · intro front token back htokens
    have hruns : tokenRuns text.toList =
        front.map String.toList ++ token.toList :: back.map String.toList := by
      rw [← htexts (tokenRuns text.toList), ← wordTokens_eq]
      exact (congrArg (List.map String.toList) htokens).trans (by simp)
    obtain ⟨before, behind, htext, hfront, hback, hbetween⟩ :=
      exists_place_of_tokenRuns hruns
    refine ⟨String.ofList before, String.ofList behind, ?_, ?_, ?_, ?_⟩
    · rw [← String.toList_inj]
      simpa using htext
    · rw [wordTokens_eq, String.toList_ofList, hfront]
      simp
    · rw [wordTokens_eq, String.toList_ofList, hback]
      simp
    · simpa using hbetween
  · have hmem : ∀ token ∈ tokenRuns text.toList, IsWord token ∨ IsSign token :=
      fun token htoken => isWord_or_isSign_of_mem_tokenRuns htoken
    rw [wordTokens_eq, String.toList_intercalate]
    change (tokenRuns ([' '].intercalate
      (((tokenRuns text.toList).map String.ofList).map String.toList))).map _ = _
    rw [htexts, tokenRuns_intercalate hmem]
    rfl

end LogCorpus
