import ReversePolish.Proofs.Lexicon.Grammar
import ReversePolish.Proofs.Session.Routes
import ReversePolish.Proofs.Text.Unquoted

/-! # The table of words

Dumping writes a head and then a row for every word, in order (`linesOf_dumped`).  Neither the
fields of a row nor the words in them, quoted as they are, hold a tab or a line feed, so the table
can be taken apart again into rows and fields, and `entries` reads from each row the kind of the
word, the word itself and its arity.  The table loses nothing of the words and tells of nothing
else (`table_of_words`). -/

namespace ReversePolish

open CommandLine (Options Level Task)
open Text (IsLine IsPlain quoted unquoted)

namespace Session

open Output (shownTexts shownTexts_append)

variable {o : Options} {m : Machine} {lines : List String} {word : String} {t : Token}

/-- What dumping lines writes to the standard output. -/
def dumped (o : Options) (m : Machine) (lines : List String) : String :=
  Output.shownText (opening .dump ++ (steps { o with task := .dump } m lines).1)

/-- The row of a word with what it stands for. -/
def rowOf (word : String) : String := row word (Lexicon.tokenOf word)

/-! ### Rows -/

theorem dumpWords_eq (level : Level) (words : List String) :
    dumpWords level words =
      (words.flatMap fun word => dumpWord level word (Lexicon.tokenOf word), none) := by
  induction words with
  | nil => rfl
  | cons word rest ih => rw [dumpWords, Lexicon.classify_eq_tokenOf, ih, List.flatMap_cons]

/-- **Every line is dumped**, and the machine is not asked. -/
theorem steps_dump (o : Options) (m : Machine) (lines : List String) :
    steps { o with task := .dump } m lines =
      ((lines.flatMap Text.words).flatMap fun word =>
        dumpWord o.level word (Lexicon.tokenOf word), none) := by
  induction lines with
  | nil => rfl
  | cons line rest ih =>
      have hstep : step { o with task := .dump } m line =
          ⟨m, (Text.words line).flatMap fun word => dumpWord o.level word (Lexicon.tokenOf word),
            none⟩ := by
        simp only [step, dump, dumpWords_eq]
      rw [steps_cons (by rw [hstep]), hstep, ih, List.flatMap_cons, List.flatMap_append]

theorem shownTexts_dumpWord (level : Level) (word : String) (t : Token) :
    shownTexts (dumpWord level word t) = [row word t] := by
  rw [dumpWord, shownTexts_append, shownTexts_journalled]
  rfl

theorem shownTexts_dumpWords (level : Level) (words : List String) :
    shownTexts (words.flatMap fun word => dumpWord level word (Lexicon.tokenOf word)) =
      words.map rowOf := by
  induction words with
  | nil => rfl
  | cons word rest ih =>
      rw [List.flatMap_cons, shownTexts_append, shownTexts_dumpWord, ih]
      rfl

/-! ### Fields -/

theorem isPlain_label (k : Kind) : IsPlain k.label.toList := by
  cases k <;> decide

theorem isPlain_arityField (t : Token) : IsPlain (arityField t).toList := by
  cases t with
  | operator op => exact Text.isPlain_of_isFigures (Numeral.isFigures_repr op.arity)
  | _ => exact Text.isPlain_nil

/-- The fields of a row. -/
def fields (word : String) (t : Token) : List (List Char) :=
  [t.kind.label.toList, (quoted word).toList, (arityField t).toList]

theorem isPlain_of_mem_fields {field : List Char} (h : field ∈ fields word t) : IsPlain field := by
  simp only [fields, List.mem_cons, List.not_mem_nil, or_false] at h
  rcases h with rfl | rfl | rfl
  · exact isPlain_label t.kind
  · exact Text.isPlain_quoted word
  · exact isPlain_arityField t

theorem toList_row (word : String) (t : Token) :
    (row word t).toList = ['\t'].intercalate (fields word t) := by
  rw [row, String.toList_intercalate]
  rfl

theorem isLine_row (word : String) (t : Token) : IsLine (row word t).toList := by
  rw [toList_row]
  exact Text.isLine_intercalate (by decide) fun field h => (isPlain_of_mem_fields h).isLine

theorem noTab_of_mem_fields : ∀ field ∈ fields word t, '\t' ∉ field :=
  fun _ h => (isPlain_of_mem_fields h).not_mem (by decide)

/-- A row parts into its fields. -/
theorem splitOn_row (word : String) (t : Token) :
    (row word t).toList.splitOn '\t' = fields word t := by
  rw [toList_row]
  exact List.splitOn_intercalate '\t' noTab_of_mem_fields (List.cons_ne_nil _ _)

/-- A row holds the two tabs between its fields and no other. -/
theorem count_tab_row (word : String) (t : Token) : (row word t).toList.count '\t' = 2 := by
  rw [toList_row]
  exact Text.count_intercalate noTab_of_mem_fields

/-! ### Reading the table -/

theorem shownTexts_dumped (o : Options) (m : Machine) (lines : List String) :
    shownTexts (opening .dump ++ (steps { o with task := .dump } m lines).1) =
      dumpHead :: (lines.flatMap Text.words).map rowOf := by
  rw [shownTexts_append, steps_dump, shownTexts_dumpWords]
  rfl

theorem linesOf_dumped (o : Options) (m : Machine) (lines : List String) :
    linesOf (dumped o m lines).toList =
      withFeed dumpHead :: (lines.flatMap Text.words).map fun word => withFeed (rowOf word) := by
  have hshown := shownTexts_dumped o m lines
  have hlines : ∀ text ∈ dumpHead :: (lines.flatMap Text.words).map rowOf, IsLine text.toList :=
    List.forall_mem_cons.2 ⟨by decide, List.forall_mem_map.2 fun word _ => isLine_row word _⟩
  rw [dumped, Output.linesOf_shownText (hshown ▸ hlines), hshown, List.map_cons, List.map_map]
  rfl

/-- What is shown depends on the words only. -/
theorem dumped_congr {o o' : Options} {m m' : Machine} {lines lines' : List String}
    (h : lines'.flatMap Text.words = lines.flatMap Text.words) :
    dumped o' m' lines' = dumped o m lines := by
  rw [← String.toList_inj, dumped, dumped, Output.toList_shownText, Output.toList_shownText,
    shownTexts_dumped, shownTexts_dumped, h]

/-- What a row tells. -/
structure Entry where
  kind : String
  word : String
  arity : String
deriving DecidableEq

/-- What is told of a word. -/
def Entry.ofWord (word : String) : Entry :=
  ⟨(Lexicon.tokenOf word).kind.label, word, arityField (Lexicon.tokenOf word)⟩

/-- Reads a row of three fields. -/
def Entry.ofRow? (line : List Char) : Option Entry :=
  match (withoutFeed line).splitOn '\t' with
  | [kind, word, arity] =>
      some ⟨String.ofList kind, unquoted (String.ofList word), String.ofList arity⟩
  | _ => none

/-- The entries of a table, behind its head. -/
def entries (table : String) : List Entry :=
  (linesOf table.toList).tail.filterMap Entry.ofRow?

theorem ofRow?_rowOf (word : String) :
    Entry.ofRow? (withFeed (rowOf word)) = some (.ofWord word) := by
  have hrow : IsReadAs (withFeed (rowOf word)) (rowOf word) := ⟨isLine_row _ _, .inr rfl⟩
  rw [Entry.ofRow?, hrow.withoutFeed_eq, rowOf, splitOn_row, fields]
  dsimp only
  rw [String.ofList_toList, String.ofList_toList, String.ofList_toList, Text.unquoted_quoted]
  rfl

/-- **The entries of a table are those of the words.** -/
theorem entries_dumped (o : Options) (m : Machine) (lines : List String) :
    entries (dumped o m lines) = (lines.flatMap Text.words).map Entry.ofWord := by
  rw [entries, linesOf_dumped, List.tail_cons]
  induction lines.flatMap Text.words with
  | nil => rfl
  | cons word rest ih =>
      rw [List.map_cons, List.filterMap_cons_some (ofRow?_rowOf word), ih, List.map_cons]

theorem words_entries_dumped (o : Options) (m : Machine) (lines : List String) :
    (entries (dumped o m lines)).map Entry.word = lines.flatMap Text.words := by
  rw [entries_dumped, List.map_map]
  exact List.map_id _

/-! ### Tokens -/

theorem label_ne_iff (k : Kind) : k.label ≠ Kind.ignored.label ↔ k ≠ .ignored := by
  cases k <;> decide

/-- Reading line by line gives the tokens of the words of all lines. -/
theorem mapM_parse (lines : List String) :
    (lines.mapM Lexicon.parse).map List.flatten =
      .ok (((lines.flatMap Text.words).map Lexicon.tokenOf).filter Token.isLegitimate) := by
  have hparse : Lexicon.parse = fun line => pure (Machine.tokensOf line) :=
    funext Machine.parse_eq_tokensOf
  rw [hparse, List.mapM_pure, List.map_flatMap, List.filter_flatMap]
  rfl

/-- The tokens of the words that are not told to stand for nothing. -/
theorem tokens_entries_dumped (o : Options) (m : Machine) (lines : List String) :
    (((entries (dumped o m lines)).filter fun e => e.kind ≠ Kind.ignored.label).map
        fun e => Lexicon.tokenOf e.word) =
      ((lines.flatMap Text.words).map Lexicon.tokenOf).filter Token.isLegitimate := by
  have hknown (word : String) :
      decide ((Entry.ofWord word).kind ≠ Kind.ignored.label) =
        (Lexicon.tokenOf word).isLegitimate := by
    rw [Token.isLegitimate, Bool.eq_iff_iff, decide_eq_true_eq, bne_iff_ne]
    exact label_ne_iff _
  rw [entries_dumped, List.filter_map, List.filter_map, List.map_map]
  simp only [Function.comp_def, hknown]
  rfl

/-- A session that dumps shows the table of its lines. -/
theorem shownText_runOptions_dump (o : Options) (around : Surroundings) :
    let route := o.route (around.inputIsTerminal && around.outputIsTerminal)
    Output.shownText (runOptions { o with task := .dump } around).outputs =
      dumped o { capacity := o.capacity } (route.lines around.input) := by
  intro route
  rw [runOptions_of_steps (o := { o with task := .dump }) nofun around
    (congrArg Prod.snd (steps_dump o _ _))]
  rfl

/-- **The table of words is faithful.**  Dumping comes to the end of the lines and writes the head
and then one row for each word of all lines, in order.  Each row holds two tabs, and between them
the kind of the word, the word in quotes and the arity of an operator.  The rows of a kind that
stands for something are the tokens that reading the lines gives, in order.  The words can be read
off the table, so it is the same for two inputs just if these have the same words.  A session that
dumps shows the table of its lines. -/
theorem table_of_words (o : Options) (m : Machine) (lines : List String) :
    let words := lines.flatMap Text.words
    let table := dumped o m lines
    (steps { o with task := .dump } m lines).2 = none ∧
      linesOf table.toList =
        withFeed dumpHead :: (words.map fun word => withFeed (rowOf word)) ∧
      (∀ word, ∃ t, Lexicon.classify word = .ok t ∧
        (rowOf word).toList.count '\t' = 2 ∧
        (rowOf word).toList.splitOn '\t' =
          [t.kind.label.toList, (quoted word).toList, (arityField t).toList]) ∧
      (lines.mapM Lexicon.parse).map List.flatten =
        .ok (((entries table).filter fun e => e.kind ≠ Kind.ignored.label).map
          fun e => Lexicon.tokenOf e.word) ∧
      (entries table).map Entry.word = words ∧
      (∀ o' m' lines', dumped o' m' lines' = table ↔ lines'.flatMap Text.words = words) ∧
      ∀ around : Surroundings,
        let route := o.route (around.inputIsTerminal && around.outputIsTerminal)
        Output.shownText (runOptions { o with task := .dump } around).outputs =
          dumped o { capacity := o.capacity } (route.lines around.input) := by
  intro words table
  refine ⟨congrArg Prod.snd (steps_dump o m lines), linesOf_dumped o m lines, fun word => ?_, ?_,
    words_entries_dumped o m lines, fun o' m' lines' => ⟨fun h => ?_, dumped_congr⟩,
    shownText_runOptions_dump o⟩
  · exact ⟨_, Lexicon.classify_eq_tokenOf word, count_tab_row word _, splitOn_row word _⟩
  · rw [mapM_parse, tokens_entries_dumped]
  · rw [← words_entries_dumped o' m' lines', h, words_entries_dumped]

/-- A word with a quote and a backslash, a double that is an integer, an operator, and a word of
controls. -/
theorem table_of_words_controls :
    let table := dumped {} {} ["'\\' 2.0\n", "POW \u001c\u0000\""]
    linesOf table.toList =
        [dumpHead, "IGNORED\t\"'\\\\'\"\t", "INTEGER\t'2.0'\t", "OPERATOR\t'POW'\t2",
          "IGNORED\t'\\x1c\\x00\"'\t"].map withFeed ∧
      (entries table).map Entry.word = ["'\\'", "2.0", "POW", "\u001c\u0000\""] := by
  intro table
  obtain ⟨-, htable, -, -, hentries, -⟩ :=
    table_of_words {} {} ["'\\' 2.0\n", "POW \u001c\u0000\""]
  have hwords : ["'\\' 2.0\n", "POW \u001c\u0000\""].flatMap Text.words =
      ["'\\'", "2.0", "POW", "\u001c\u0000\""] := by decide +kernel
  have hrows : ["'\\'", "2.0", "POW", "\u001c\u0000\""].map rowOf =
      ["IGNORED\t\"'\\\\'\"\t", "INTEGER\t'2.0'\t", "OPERATOR\t'POW'\t2",
        "IGNORED\t'\\x1c\\x00\"'\t"] := by decide +kernel
  constructor
  · rw [htable, hwords, ← hrows, List.map_cons (f := withFeed), List.map_map]
    rfl
  · rw [hentries, hwords]

end Session

end ReversePolish
