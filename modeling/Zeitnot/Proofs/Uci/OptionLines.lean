import Zeitnot.Proofs.Options.Transfer
import Zeitnot.Proofs.Uci.UnknownCommands
set_option autoImplicit false

namespace Zeitnot.Uci
open Chess Config Number Text Stateful

/-- Whether a line has the words of the one that sets an option to a value. -/
def SetsOption (name value line : String) : Prop :=
  words line = words s!"setoption name {name} value {value}"

theorem words_of_setsOption {name value line : String} (h : SetsOption name value line) :
    words line = "setoption" :: "name" :: (words name ++ "value" :: words value) := by
  have hline : s!"setoption name {name} value {value}" =
      "setoption name" ++ " " ++ (name ++ " " ++ ("value" ++ " " ++ value)) := by
    change "setoption name " ++ name ++ " value " ++ value = _
    apply String.toList_injective
    simp
  have hfirst : words "setoption name" = ["setoption", "name"] := by decide +kernel
  have hvalue : words "value" = ["value"] := by decide +kernel
  rw [h, hline, words_append_space, words_append_space, words_append_space, hfirst, hvalue]
  rfl

theorem request_of_setsOption {name value line : String} (h : SetsOption name value line) :
    Request.of (strip line) = .setOption :=
  Request.of_strip_of_begins (c := ("setoption", .setOption))
    (by rw [words_of_setsOption h]; rfl) (by decide) (by decide) List.prefix_rfl

/-- A name of one or more words, single spaces between them, none of which ends a name. -/
structure IsName (name : String) : Prop where
  nonempty : words name ≠ []
  spaced : unwords (words name) = name
  unended : "value" ∉ words name

theorem readOption_of_setsOption {name value line : String} (h : SetsOption name value line)
    (hname : IsName name) :
    readOption (strip line) = .ok (name, unwords (words value)) := by
  obtain ⟨w, ws, hw⟩ := List.exists_cons_of_ne_nil hname.nonempty
  have hsplit : splitAtWord? "value" (w :: (ws ++ "value" :: words value)) =
      some (w :: ws, words value) := by
    rw [← List.cons_append, ← hw]
    exact splitAtWord?_append hname.unended _
  unfold readOption
  rw [words_strip, words_of_setsOption h, hw, List.cons_append]
  simp only [hsplit, Option.getD_some]
  rw [← hw, hname.spaced]

namespace State
variable {S C : Type} [Scalar S] [Timepiece C]

def withOptions (u : State S C) (options : Options) : State S C :=
  { u with session := { u.session with options } }

theorem receive_setsOption {u : State S C} {name value line : String} {options : Options}
    (h : SetsOption name value line) (hname : IsName name) (hvalue : unwords (words value) = value)
    (hset : u.session.options.set name (.text value) = .ok options) :
    ∃ j, u.receive line = some ([], (u.withOptions options).withJournal j) := by
  have hr : Request.of (strip line) = .setOption := request_of_setsOption h
  have hread : readOption (strip line) = .ok (name, value) := by
    rw [readOption_of_setsOption h hname, hvalue]
  obtain ⟨j, hj⟩ := run_tellSetting name { u.session with options }
  have hhandle : u.handle (strip line) = (.ok [], (u.withOptions options).withJournal j) := by
    rw [State.handle, hr]
    simp only [handleOption_eq, hread, onSession, run_bind, Session.run_setOption, hset, hj]
    rfl
  refine ⟨j, ?_⟩
  rw [receive_of_request (hr ▸ by decide), respond, hhandle]

theorem converse_setsOptions {pairs : List (String × String)} {lines : List String}
    (h : List.Forall₂ (fun p line => SetsOption p.1 p.2 line) pairs lines)
    (hpairs : ∀ p ∈ pairs, IsName p.1 ∧ unwords (words p.2) = p.2) {u : State S C} {file : String}
    {options : Options} (hset : Options.setAll file (pairs.map fun p => (.text p.1, .text p.2))
      u.session.options = (options, .ok ())) :
    ∃ j, u.converse lines = (lines.map fun _ => [], (u.withOptions options).withJournal j) := by
  induction h generalizing u with
  | nil =>
    cases hset
    exact ⟨u.session.journal, rfl⟩
  | @cons p line pairs lines hline _ ih =>
    obtain ⟨⟨hname, hvalue⟩, hrest⟩ := List.forall_mem_cons.1 hpairs
    rw [List.map_cons, Options.setAll] at hset
    split at hset
    · cases hset
    · cases hfirst : u.session.options.set p.1 (.text p.2) with
      | error fault =>
        rw [hfirst] at hset
        cases hset
      | ok options₁ =>
        rw [hfirst] at hset
        obtain ⟨j, hj⟩ := receive_setsOption hline hname hvalue hfirst
        obtain ⟨k, hk⟩ := ih hrest (u := (u.withOptions options₁).withJournal j) hset
        refine ⟨k, ?_⟩
        rw [converse, hj]
        simp only [hk, List.map_cons]
        rfl

end State

/-! ### Carrying a table over -/

theorem isName_of_mem {name : String} (h : name ∈ Options.standard.names) : IsName name := by
  have hall : ∀ name ∈ Options.standard.names,
      words name ≠ [] ∧ unwords (words name) = name ∧ "value" ∉ words name := by decide +kernel
  obtain ⟨hnonempty, hspaced, hunended⟩ := hall name h
  exact ⟨hnonempty, hspaced, hunended⟩

theorem unwords_words_plain {s : Setting} (h : s.Fits) :
    unwords (words s.value.plain) = s.value.plain := by
  have hword {t : String} (ht : words t = [t]) : unwords (words t) = t := by
    rw [ht]
    rfl
  refine hword ?_
  unfold Setting.Fits at h
  split at h
  · obtain ⟨-, i, -, -, hi, -⟩ := h
    rw [hi, Value.plain_int]
    exact words_toString i
  · obtain ⟨b, hb⟩ := h
    rw [hb]
    cases b <;> decide +kernel

/-- Whatever was done to a table of the standard settings, it can be carried over to any other one:
by a file that holds its values, in any order, or by lines that set its options, in any order and
with any blanks between the words. Nothing is refused, and nothing is left of the values that the
other table held. -/
theorem options_survive_transfer {S C : Type} [Scalar S] [Timepiece C]
    (ops : List Options.Operation) :
    let o := Options.standard.after ops
    (∀ {p : Options} {folder : Folder} {file : String} {kvs : List (Value × Value)},
        p.reset = .standard → Options.readEntries folder file = .ok kvs →
        kvs.Perm (o.toList.map fun p => (.text p.1, p.2)) →
        p.load folder file = (o, .ok ())) ∧
      ∀ {u : State S C} {pairs : List (String × Value)} {lines : List String},
        u.session.options.reset = .standard → pairs.Perm o.toList →
        List.Forall₂ (fun p line => SetsOption p.1 p.2.plain line) pairs lines →
        ∃ j, u.converse lines = (lines.map fun _ => [], (u.withOptions o).withJournal j) := by
  intro o
  have ho : Options.Keeps .standard o := Options.declared_standard.keeps.after
    Options.declared_standard ops
  have hentries (raw : Value → Value) :
      (o.toList.map fun p => (Value.text p.1, raw p.2)) = o.entriesBy fun s => raw s.value := by
    rw [Options.toList, List.map_map]
    rfl
  refine ⟨fun {p folder file kvs} hp hread hkvs => ?_, fun {u pairs lines} hu hpairs hlines => ?_⟩
  · have hvalues : kvs.Perm (o.entriesBy (·.value)) := hentries id ▸ hkvs
    rw [Options.load_eq hread, Options.setAll_values ho hp hvalues]
    rfl
  · have htexts : (pairs.map fun p => (Value.text p.1, Value.text p.2.plain)).Perm
        (o.entriesBy (.text ·.value.plain)) :=
      hentries (.text ·.plain) ▸ hpairs.map fun p => (Value.text p.1, Value.text p.2.plain)
    have hwords : ∀ p ∈ pairs.map fun p => (p.1, p.2.plain),
        IsName p.1 ∧ unwords (words p.2) = p.2 := by
      refine List.forall_mem_map.2 fun p hp => ?_
      obtain ⟨s, hs, rfl⟩ := List.mem_map.1 (hpairs.mem_iff.1 hp)
      have hname : s.name ∈ Options.standard.names := ho.names ▸ List.mem_map_of_mem hs
      exact ⟨isName_of_mem hname, unwords_words_plain (ho.fits s hs)⟩
    have hlines' : List.Forall₂ (fun p line => SetsOption p.1 p.2 line)
        (pairs.map fun p => (p.1, p.2.plain)) lines := List.forall₂_map_left_iff.2 hlines
    have hset : Options.setAll "" ((pairs.map fun p => (p.1, p.2.plain)).map fun p =>
        (Value.text p.1, Value.text p.2)) u.session.options = (o, .ok ()) := by
      rw [List.map_map]
      exact Options.setAll_texts ho hu htexts ""
    exact State.converse_setsOptions hlines' hwords hset

theorem ponder_survives_transfer :
    let o := Options.standard.after [.set "Ponder" (.bool true)]
    let p : Options := Options.standard.withValue "nodestime" (.int 600)
    let text := "\x7b\"Ponder\": true, \"nodestime\": 0, \"Move Overhead\": 10\x7d"
    let u := State.start .standard (⟨0, 1⟩ : NodeClock)
      (Session.fresh Constants.tuned p .attentive)
    p.load ⟨[("o.json", .file text)]⟩ "o.json" = (o, .ok ()) ∧
      ∃ j, u.converse ["setoption name Ponder   value True", " setoption\tname nodestime value 0",
        "setoption name Move   Overhead  value 10 "] =
          ([[], [], []], (u.withOptions o).withJournal j) := by
  intro o p text u
  have ho : o.toList = [("Move Overhead", .int 10), ("nodestime", .int 0),
    ("Ponder", .bool true)] := rfl
  have hperm : [("Ponder", .bool true), ("nodestime", .int 0), ("Move Overhead", .int 10)].Perm
      o.toList := ho ▸ List.reverse_perm [_, _, _]
  have hfind : Folder.find? ⟨[("o.json", .file text)]⟩ "o.json" = some (.file text) := by
    decide +kernel
  have hname : Options.isYamlName "o.json" = false := by decide +kernel
  have hlines : String.ofList (Options.unifyLines text.toList) = text := by decide +kernel
  have hjson : Json.read text = .ok (.mapping [(.text "Ponder", .bool true),
      (.text "nodestime", .int 0), (.text "Move Overhead", .int 10)]) := by
    simp [text, Json.read, Json.value, Json.members, Json.string?, Json.number?, Json.word?,
      Json.words, Json.skipSpace, Json.isSpace, Json.isDigit, Json.digitsValue, digitLimit,
      Value.putEntry, Value.sameKey, bind, Except.bind]
  have hread : Options.readEntries ⟨[("o.json", .file text)]⟩ "o.json" =
      .ok [(.text "Ponder", .bool true), (.text "nodestime", .int 0),
        (.text "Move Overhead", .int 10)] := by
    rw [Options.readEntries, hfind]
    simp only [Options.readFile, hname, hlines, hjson]
    rfl
  obtain ⟨hfile, hlines⟩ := options_survive_transfer (S := Float) (C := NodeClock)
    [.set "Ponder" (.bool true)]
  refine ⟨hfile rfl hread (hperm.map fun p : String × Value => (Value.text p.1, p.2)), ?_⟩
  refine hlines (u := u) rfl hperm ?_
  refine .cons ?_ (.cons ?_ (.cons ?_ .nil))
  all_goals
    unfold SetsOption
    decide +kernel

end Zeitnot.Uci
