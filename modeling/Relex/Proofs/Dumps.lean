import Relex.CommandLine
import Relex.Proofs.JsonReading
import Relex.Proofs.Listing
import Relex.Proofs.Phases

/-! # Dumps of files

What the command line prints for a file can be read back. A listing gives the tokens with their
texts, and the texts make up the file; a dump in JSON gives the same tokens. That every token has a
text, and that the texts leave nothing out, is coverage (`Covers.exists_texts`).
-/

namespace Relex

open Text

/-- The texts of tokens that cover a part of a text make up the part. -/
theorem Covers.exists_texts {text part : List Char} {start stop : Nat} {tokens : List Token}
    (h : Covers text stop start tokens) (hpart : Spans text part start stop) :
    ∃ texts, tokens.mapM (fun token => region text token.start token.stop) = .ok texts ∧
      texts.flatten = part := by
  induction h generalizing part with
  | nil =>
      have hnil : part = [] := byteLength_eq_zero (by have := hpart.stop_eq; omega)
      exact ⟨[], rfl, hnil.symm⟩
  | @cons start token tokens hstart hlt hfirst hbehind hlater ih =>
      subst hstart
      have hle : token.stop ≤ stop := by
        have := hlater.length_le
        omega
      obtain ⟨front, hfront⟩ := spans_between hfirst hbehind (Nat.le_of_lt hlt)
      obtain ⟨back, hback⟩ := spans_between hbehind hpart.boundary_stop hle
      obtain ⟨texts, htexts, hflatten⟩ := ih hback
      refine ⟨front :: texts, ?_, ?_⟩
      · rw [List.mapM_cons, region_eq_ok_iff.mpr hfront, htexts]
        rfl
      · rw [List.flatten_cons, hflatten]
        exact (hfront.append hback).unique hpart

theorem length_of_mapM {ε α β : Type} {f : α → Except ε β} {as : List α} {bs : List β}
    (h : as.mapM f = .ok bs) : bs.length = as.length := by
  induction as generalizing bs with
  | nil => cases h; rfl
  | cons a as ih =>
      obtain ⟨b, later, -, hlater, rfl⟩ := Except.exists_of_mapM_cons h
      simp [ih hlater]

namespace CommandLine

open Markup Document

theorem run_of_tokensText {path : String} {options : Options} {args : List String}
    {content : String → FileContent} {bytes : ByteArray} {source dump : String}
    (hargs : parse args = .ok (.tokens path options)) (hcontent : content path = .bytes bytes)
    (hsource : String.fromUTF8? bytes = some source)
    (hdump : tokensText options source = .ok dump) : run args content = { stdout := dump } := by
  simp [run, hargs, Invocation.path?, hcontent, runInvocation, readText, hsource, runOn, hdump,
    Except.map]

section

variable {options : Options} {source : String} {tape : Tape Snapshot Live}
  (hread : Reader.start options.reader source 0 source.utf8ByteSize 0 = .ok tape)
include hread

theorem tokensText_json (hjson : options.json = true) :
    tokensText options source = .ok (String.ofList (Dump.json tape.tokens)) := by
  rw [tokensText, hread]
  simp [hjson, bind, Except.bind, pure, Except.pure]

theorem tokensText_listing (hjson : options.json = false) {texts : List (List Char)}
    (htexts : tape.tokens.mapM (fun token => region source.toList token.start token.stop) =
      .ok texts) :
    tokensText options source = .ok (String.ofList
      ((tape.tokens.zip texts).flatMap fun entry => Dump.listingLine entry.1 entry.2)) := by
  rw [tokensText, hread]
  simp [hjson, Dump.listing_eq htexts, bind, Except.bind, pure, Except.pure]

end

/-- What is printed for the tokens of a file holds all of them. Cut at its line breaks, a listing is
    one line for each token and nothing else; each line shows the range and the kind of its token,
    and in a literal the text of the range. The texts in order are the file. A dump in JSON shows the
    same tokens. -/
theorem dumps_read_back (path : String) (options : Options) (args : List String)
    (content : String → FileContent) (bytes : ByteArray) (source : String)
    (hargs : parse args = .ok (.tokens path options)) (hcontent : content path = .bytes bytes)
    (hsource : String.fromUTF8? bytes = some source) :
    ∃ (started : Lexer DocumentGrammar Snapshot Live) (texts : List (List Char)) (dump : String),
      (Lexer.idle options.reader).start source 0 source.utf8ByteSize 0 = .ok started ∧
      run args content = { stdout := dump } ∧
      started.tape.tokens.mapM (fun token => region source.toList token.start token.stop) =
        .ok texts ∧
      texts.flatten = source.toList ∧
      (options.json = false → ∃ lines, dump.toList.splitOn '\n' = lines ++ [[]] ∧
        lines.mapM Dump.readLine? = some (started.tape.tokens.zip texts) ∧
        lines.length = started.tape.tokens.length) ∧
      (options.json = true → Dump.readJson dump.toList = some started.tape.tokens) := by
  have hwhole := spans_whole source
  obtain ⟨started, hstarted, -, -, -, hcovers⟩ := DocumentGrammar.start_covers
    (Lexer.idle options.reader) 0 hwhole.boundary_start hwhole.boundary_stop (Nat.zero_le _)
  obtain ⟨texts, htexts, hflatten⟩ := hcovers.exists_texts hwhole
  have hread : Reader.start options.reader source 0 source.utf8ByteSize 0 = .ok started.tape :=
    Lexer.read_of_start hstarted
  cases hjson : options.json with
  | true =>
      have hrun := run_of_tokensText hargs hcontent hsource (tokensText_json hread hjson)
      refine ⟨started, texts, _, hstarted, hrun, htexts, hflatten, nofun, fun _ => ?_⟩
      simp only [String.toList_ofList, Dump.readJson_json]
  | false =>
      have hrun := run_of_tokensText hargs hcontent hsource (tokensText_listing hread hjson htexts)
      refine ⟨started, texts, _, hstarted, hrun, htexts, hflatten, fun _ => ?_, nofun⟩
      have hlength : texts.length = started.tape.tokens.length := length_of_mapM htexts
      have hlines := Dump.splitOn_flatMap_listingLine (started.tape.tokens.zip texts)
      have hentries := Dump.mapM_readLine?_lineBody (started.tape.tokens.zip texts)
      rw [String.toList_ofList]
      exact ⟨_, hlines, hentries, by simp [hlength]⟩

/-- A listing and a dump in JSON of one file. -/
theorem dumps_read_back_of_highlighted :
    ∃ (started : Lexer DocumentGrammar Snapshot Live) (texts : List (List Char))
      (listing dump : String),
      run ["tokens", "--highlight", "a.astro"] (fun _ => .bytes "é<p a='\n'>".toUTF8) =
        { stdout := listing } ∧
      run ["tokens", "--json", "--highlight", "a.astro"] (fun _ => .bytes "é<p a='\n'>".toUTF8) =
        { stdout := dump } ∧
      texts.flatten = "é<p a='\n'>".toList ∧
      (∃ lines, listing.toList.splitOn '\n' = lines ++ [[]] ∧
        lines.mapM Dump.readLine? = some (started.tape.tokens.zip texts)) ∧
      Dump.readJson dump.toList = some started.tape.tokens := by
  have hpath : "a.astro".startsWith "-" = false := by decide +kernel
  have hlistingArgs : parse ["tokens", "--highlight", "a.astro"] =
      .ok (.tokens "a.astro" { highlight := true }) := by
    simp [parse, parseFile, hpath, bind, Except.bind, pure, Except.pure]
  have hjsonArgs : parse ["tokens", "--json", "--highlight", "a.astro"] =
      .ok (.tokens "a.astro" { highlight := true, json := true }) := by
    simp [parse, parseFile, hpath, bind, Except.bind, pure, Except.pure]
  have hfile : String.fromUTF8? "é<p a='\n'>".toUTF8 = some "é<p a='\n'>" := by decide +kernel
  obtain ⟨started, texts, listing, hstarted, hlisting, -, hflatten, hlines, -⟩ :=
    dumps_read_back _ _ _ (fun _ => .bytes "é<p a='\n'>".toUTF8) _ _ hlistingArgs rfl hfile
  obtain ⟨again, -, dump, hagain, hdump, -, -, -, hjson⟩ :=
    dumps_read_back _ _ _ (fun _ => .bytes "é<p a='\n'>".toUTF8) _ _ hjsonArgs rfl hfile
  -- The options that differ do not concern the reader.
  obtain rfl : started = again := Except.ok.inj (hstarted.symm.trans hagain)
  obtain ⟨lines, hsplit, hread, -⟩ := hlines rfl
  exact ⟨started, texts, listing, dump, hlisting, hdump, hflatten, ⟨lines, hsplit, hread⟩,
    hjson rfl⟩

end CommandLine

end Relex
