import OptionPresets.Proofs.CommandLine.Answer
import OptionPresets.Proofs.CommandLine.Concatenation
import OptionPresets.Proofs.Options.ReadBack

/-!
# OptionPresets.Proofs.CommandLine.OutputFlags

Two flags say what is shown and not what is done: `--trace` and `--changed`. Put
at the end of any token of any command line,

* `--trace` can only add a trace to an error stream that was empty;
* `--changed` can only take lines out of a listing, those that the default
  record has too.

Both happen only where the options of some request are printed
(`Token.Configures`). Each flag turns on one setting wherever it stands
(`given_insert`), and an answer that prints no options reads neither of the two
settings (`answer_enable_of_not_configures`).
-/

namespace OptionPresets

/-! ## flags that are put in -/

namespace Settings

theorem given_append (s : Settings) (ts us : List Token) :
    s.given (ts ++ us) = (s.given ts).given us := by
  induction ts generalizing s with
  | nil => rw [List.nil_append, given_nil]
  | cons t ts ih => rw [List.cons_append, given_cons, ih, given_cons]

/-- It makes no difference whether a flag is on before or after other tokens. -/
theorem given_enable (f : Flag) (s : Settings) (ts : List Token) :
    (f.enable s).given ts = f.enable (s.given ts) := by
  cases f <;> rfl

/-- A flag among other tokens does what it does by itself. -/
theorem given_insert (s : Settings) (f : Flag) (us vs : List Token) :
    s.given (us ++ .flag f :: vs) = f.enable (s.given (us ++ vs)) := by
  rw [given_append, given_cons, Token.update, given_enable, ← given_append]

end Settings

namespace Token

/-- The tokens after a flag has been put behind arguments that have ended. -/
theorem Ended.segments_insert_flag {xs : List String} (hx : Ended xs) (f : Flag) {ys : List String}
    {ts : List Token} (h : Segments (xs ++ ys) ts) :
    ∃ us vs, ts = us ++ vs ∧ Segments (xs ++ f.text :: ys) (us ++ .flag f :: vs) := by
  refine ⟨scan xs, scan ys, ?_, hx.segments_insert (.flag f) ys⟩
  rw [← h.scan_eq, hx.scan_append]

/-- A flag adds no fault. -/
theorem clean_insert_iff {f : Flag} {us vs : List Token} :
    Clean (us ++ .flag f :: vs) ↔ Clean (us ++ vs) := by
  rw [Clean, Clean, ← complaints_eq_nil_iff, complaints_append_cons rfl, complaints_eq_nil_iff]

end Token

/-! ## printing options -/

/-- The settings print the options of the request `r`. -/
structure Settings.Configures (s : Settings) (r : Request) : Prop where
  no_text : ¬ (s.help ∨ s.version ∨ s.listLevels)
  level_mem : s.level ∈ r.level.aliases
  addOns_eq : s.addOns = r.addOns

/-- A run on the tokens prints the options of the request `r`. -/
structure Token.Configures (ts : List Token) (r : Request) : Prop where
  clean : Clean ts
  no_text : ¬ AsksForText ts
  level_mem : levelText ts ∈ r.level.aliases
  addOns_eq : addOns ts = r.addOns

theorem Settings.asksForText_given_iff {ts : List Token} :
    (({} : Settings).given ts).help ∨ (({} : Settings).given ts).version ∨
      (({} : Settings).given ts).listLevels ↔ Token.AsksForText ts := by
  rw [help_given_iff, version_given_iff, listLevels_given_iff, Token.AsksForText]

/-- Without faults the settings of the tokens decide whether options are printed. -/
theorem Token.configures_iff {ts : List Token} {r : Request} :
    Configures ts r ↔ Clean ts ∧ (({} : Settings).given ts).Configures r := by
  have hlevel : (({} : Settings).given ts).level = levelText ts := by rw [Settings.given_default]
  have haddOns : (({} : Settings).given ts).addOns = addOns ts := by rw [Settings.given_default]
  constructor
  · intro hr
    exact ⟨hr.clean, mt Settings.asksForText_given_iff.1 hr.no_text, hlevel ▸ hr.level_mem,
      haddOns.trans hr.addOns_eq⟩
  · rintro ⟨hc, hr⟩
    exact ⟨hc, mt Settings.asksForText_given_iff.2 hr.no_text, hlevel ▸ hr.level_mem,
      haddOns.symm.trans hr.addOns_eq⟩

theorem run_of_configures {argv : Arguments} {ts : List Token} {r : Request}
    (h : Token.Segments (argv.toList.drop 1) ts) (hr : Token.Configures ts r) :
    run argv =
      ⟨0, if .flag .changed ∈ ts then Options.renderChanges {} (r.configure {})
        else (r.configure {}).render, if .flag .trace ∈ ts then r.trace else ""⟩ := by
  obtain ⟨l, a⟩ := r
  have ha : Token.addOns ts = a := hr.addOns_eq
  rw [run_of_level h hr.clean hr.no_text hr.level_mem, ha]

/-! ## putting in a flag for the output -/

section

variable {f : Flag} (hf : f = .trace ∨ f = .changed)

include hf

namespace Settings

/-- The flag says nothing about which options are printed. -/
theorem Configures.enable {s : Settings} {r : Request} (hr : s.Configures r) :
    (f.enable s).Configures r := by
  rcases hf with rfl | rfl <;>
    exact ⟨hr.no_text, hr.level_mem, hr.addOns_eq⟩

/-- An answer without options does not depend on the flag. -/
theorem answer_enable_of_not_configures {s : Settings} (hn : ∀ r, ¬ s.Configures r) :
    (f.enable s).answer = s.answer := by
  by_cases ht : s.help ∨ s.version ∨ s.listLevels
  · rcases ht with hh | hv | hl
    · rcases hf with rfl | rfl <;> simp [answer, Flag.enable, hh]
    · rcases hf with rfl | rfl <;> simp [answer, Flag.enable, hv]
    · rcases hf with rfl | rfl <;> simp [answer, Flag.enable, hl]
  · have hlevel : s.level ∉ Level.texts := by
      intro hm
      obtain ⟨l, hl⟩ := Level.mem_texts_iff.1 hm
      exact hn ⟨l, s.addOns⟩ ⟨ht, hl, rfl⟩
    obtain ⟨hh, hv, hl⟩ : ¬ s.help ∧ ¬ s.version ∧ ¬ s.listLevels := by
      simpa only [not_or] using ht
    rcases hf with rfl | rfl <;>
      simp [answer, Flag.enable, hh, hv, hl, answerOptions_of_not_mem, hlevel]

end Settings

section

variable {us vs : List Token}

theorem Token.Configures.insert {r : Request} (hr : Configures (us ++ vs) r) :
    Configures (us ++ .flag f :: vs) r := by
  rw [configures_iff, clean_insert_iff, Settings.given_insert]
  obtain ⟨hc, hs⟩ := configures_iff.1 hr
  exact ⟨hc, hs.enable hf⟩

/-- A run that prints no options is the same with the flag. -/
theorem run_insert_of_not_configures {argv argv' : Arguments}
    (h : Token.Segments (argv.toList.drop 1) (us ++ vs))
    (h' : Token.Segments (argv'.toList.drop 1) (us ++ .flag f :: vs))
    (hn : ∀ r, ¬ Token.Configures (us ++ vs) r) : run argv' = run argv := by
  by_cases hc : Token.Clean (us ++ vs)
  · rw [run_of_clean h' (Token.clean_insert_iff.2 hc), run_of_clean h hc, Settings.given_insert]
    refine Settings.answer_enable_of_not_configures hf fun r hr => ?_
    exact hn r (Token.configures_iff.2 ⟨hc, hr⟩)
  · rw [run_of_not_clean h' (mt Token.clean_insert_iff.1 hc), run_of_not_clean h hc,
      Token.complaints_append_cons rfl]

end

end

/-! ## what comes of it -/

open Token in
/-- What becomes of an outcome for the tokens `ts` if a flag for the trace is put in. -/
structure TraceInserted (ts : List Token) (o o' : Outcome) : Prop where
  status_eq : o'.status = o.status
  out_eq : o'.out = o.out
  err_eq : (∀ r, ¬ Configures ts r) ∨ .flag .trace ∈ ts → o'.err = o.err
  err_of_configures : ∀ r, Configures ts r → .flag .trace ∉ ts →
    o.status = 0 ∧ o.err = "" ∧ o'.err = r.trace

open Token in
/-- What becomes of an outcome for the tokens `ts` if a flag for the changes is put in. -/
structure ChangedInserted (ts : List Token) (o o' : Outcome) : Prop where
  status_eq : o'.status = o.status
  err_eq : o'.err = o.err
  out_eq : (∀ r, ¬ Configures ts r) → o'.out = o.out
  /-- Of the full listing those lines are left that the default listing does not have. -/
  out_of_configures : ∀ r, Configures ts r → o.status = 0 ∧
    (.flag .changed ∉ ts → o.out = (r.configure {}).render) ∧
    ∃ full base, Lines.read (r.configure {}).render = some full ∧
      Lines.read ({} : Options).render = some base ∧
      o'.out = Lines.render (full.filter fun line => line ∉ base)

section

variable {us vs : List Token} {argv argv' : Arguments}
  (h : Token.Segments (argv.toList.drop 1) (us ++ vs))

include h

theorem traceInserted (h' : Token.Segments (argv'.toList.drop 1) (us ++ .flag .trace :: vs)) :
    TraceInserted (us ++ vs) (run argv) (run argv') := by
  have hchanged : .flag .changed ∈ us ++ Token.flag .trace :: vs ↔ .flag .changed ∈ us ++ vs := by
    simp
  have htrace : .flag .trace ∈ us ++ Token.flag .trace :: vs := by simp
  have hrun (r : Request) (hr : Token.Configures (us ++ vs) r) :
      run argv' = { run argv with err := r.trace } := by
    rw [run_of_configures h hr, run_of_configures h' (hr.insert (.inl rfl)), if_pos htrace]
    simp only [hchanged]
  by_cases hn : ∀ r, ¬ Token.Configures (us ++ vs) r
  · rw [run_insert_of_not_configures (.inl rfl) h h' hn]
    exact ⟨rfl, rfl, fun _ => rfl, fun r hr => absurd hr (hn r)⟩
  · obtain ⟨r, hr⟩ := Classical.not_forall_not.1 hn
    refine ⟨?_, ?_, ?_, ?_⟩
    · rw [hrun r hr]
    · rw [hrun r hr]
    · intro hor
      rw [hrun r hr, run_of_configures h hr, if_pos (hor.resolve_left hn)]
    · intro r hr ht
      rw [hrun r hr, run_of_configures h hr, if_neg ht]
      exact ⟨rfl, rfl, rfl⟩

theorem changedInserted (h' : Token.Segments (argv'.toList.drop 1) (us ++ .flag .changed :: vs)) :
    ChangedInserted (us ++ vs) (run argv) (run argv') := by
  have hchanged : .flag .changed ∈ us ++ Token.flag .changed :: vs := by simp
  have htrace : .flag .trace ∈ us ++ Token.flag .changed :: vs ↔ .flag .trace ∈ us ++ vs := by
    simp
  have hrun (r : Request) (hr : Token.Configures (us ++ vs) r) :
      run argv' = { run argv with out := Options.renderChanges {} (r.configure {}) } := by
    rw [run_of_configures h hr, run_of_configures h' (hr.insert (.inr rfl)), if_pos hchanged]
    simp only [htrace]
  by_cases hn : ∀ r, ¬ Token.Configures (us ++ vs) r
  · rw [run_insert_of_not_configures (.inr rfl) h h' hn]
    exact ⟨rfl, rfl, fun _ => rfl, fun r hr => absurd hr (hn r)⟩
  · obtain ⟨r, hr⟩ := Classical.not_forall_not.1 hn
    refine ⟨?_, ?_, ?_, ?_⟩
    · rw [hrun r hr]
    · rw [hrun r hr]
    · exact fun hn' => absurd hn' hn
    · intro r hr
      refine ⟨?_, ?_, _, _, Options.read_render _, Options.read_render _, ?_⟩
      · rw [run_of_configures h hr]
      · intro hc
        rw [run_of_configures h hr, if_neg hc]
      · rw [hrun r hr, Options.renderChanges_eq_filter]

end

/-! ## at the end of any token -/

/-- Put behind arguments that have ended, a flag for the output leaves the answer to a command
line as it is, but for the trace or the lines that it asks for. -/
theorem run_insert_output_flag {xs ys : List String} (hx : Token.Ended xs) {ts : List Token}
    (hts : Token.Segments (xs ++ ys) ts) {tool : String} {argv : Arguments}
    (h : argv.toList = tool :: (xs ++ ys)) :
    (∀ (tool' : String) (argv' : Arguments), argv'.toList = tool' :: (xs ++ "--trace" :: ys) →
      TraceInserted ts (run argv) (run argv')) ∧
    ∀ (tool' : String) (argv' : Arguments), argv'.toList = tool' :: (xs ++ "--changed" :: ys) →
      ChangedInserted ts (run argv) (run argv') := by
  have hsegments : Token.Segments (argv.toList.drop 1) ts := by
    rw [h, List.drop_one, List.tail_cons]
    exact hts
  constructor
  · intro tool' argv' h'
    obtain ⟨us, vs, rfl, hs⟩ := hx.segments_insert_flag .trace hts
    refine traceInserted hsegments ?_
    rw [h', List.drop_one, List.tail_cons]
    exact hs
  · intro tool' argv' h'
    obtain ⟨us, vs, rfl, hs⟩ := hx.segments_insert_flag .changed hts
    refine changedInserted hsegments ?_
    rw [h', List.drop_one, List.tail_cons]
    exact hs

/-- Behind one flag and before a level, each of the two flags does all that it can do. -/
theorem run_insert_output_flag_behind_debug :
    Token.Ended ["--debug"] ∧
    Token.Segments ["--debug", "-O", "ADVANCED"] [.flag .debug, .level .short "ADVANCED"] ∧
    (run (.ofList ["tool", "--debug", "-O", "ADVANCED"])).err = "" ∧
    (run (.ofList ["tool", "--debug", "--trace", "-O", "ADVANCED"])).err =
      Request.trace ⟨.advanced, { debug := true }⟩ ∧
    ∃ full base,
      Lines.read (run (.ofList ["tool", "--debug", "-O", "ADVANCED"])).out = some full ∧
      Lines.read ({} : Options).render = some base ∧
      (run (.ofList ["tool", "--debug", "--changed", "-O", "ADVANCED"])).out =
        Lines.render (full.filter fun line => line ∉ base) := by
  have hx : Token.Ended ["--debug"] := ⟨_, .flag .debug .nil, by simp⟩
  have hts : Token.Segments ["--debug", "-O", "ADVANCED"]
      [.flag .debug, .level .short "ADVANCED"] := .flag .debug (.level .short "ADVANCED" .nil)
  have hr : Token.Configures [.flag .debug, .level .short "ADVANCED"]
      ⟨.advanced, { debug := true }⟩ :=
    ⟨Token.complaints_eq_nil_iff.1 (by decide), by simp [Token.AsksForText, Token.AsksForHelp],
      by decide, by decide⟩
  have h : (Arguments.ofList ["tool", "--debug", "-O", "ADVANCED"]).toList =
      "tool" :: (["--debug"] ++ ["-O", "ADVANCED"]) := by decide
  obtain ⟨htrace, hchanged⟩ := run_insert_output_flag hx hts h
  have ht := htrace "tool" (.ofList ["tool", "--debug", "--trace", "-O", "ADVANCED"]) (by decide)
  have hc := hchanged "tool" (.ofList ["tool", "--debug", "--changed", "-O", "ADVANCED"])
    (by decide)
  obtain ⟨-, herr, herr'⟩ := ht.err_of_configures _ hr (by decide)
  obtain ⟨-, hout, hlines⟩ := hc.out_of_configures _ hr
  rw [hout (by decide)]
  exact ⟨hx, hts, herr, herr', hlines⟩

end OptionPresets
