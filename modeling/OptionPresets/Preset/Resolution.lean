import OptionPresets.Diagnostic
import OptionPresets.Preset.Request

/-!
# OptionPresets.Preset.Resolution

Requests whose level is given as text. The text must be an alias of a level;
then the request is carried out on default options. Any other text is an
error, the only one there is, and leaves a trace as it was.
-/

namespace OptionPresets

/-- The text of a level that no level has as an alias. -/
structure UnknownLevel where
  text : String
  deriving DecidableEq, Repr

/-- The report about an unknown level quotes the text as it was given. -/
def UnknownLevel.diagnostic (e : UnknownLevel) : Diagnostic :=
  .error "--compilation_level" ("unknown compilation level '" ++ e.text ++ "'")

/-- The options that were resolved, or why there are none, and the trace after the attempt. -/
structure Resolution where
  options : Except UnknownLevel Options
  trace : Option String

/-- Carry out the request for the level that a text spells on default options, adding to the
trace if one is kept. -/
def resolve (text : String) (addOns : AddOns) (trace : Option String) : Resolution :=
  match Level.ofAlias? text with
  | none => ⟨.error ⟨text⟩, trace⟩
  | some level =>
    let done := Request.run ⟨level, addOns⟩ ⟨{}, trace⟩
    ⟨.ok done.options, done.trace⟩

/-- A text that spells a level gives the options and the trace of its request. -/
theorem resolve_of_mem_aliases {text : String} {level : Level} (h : text ∈ level.aliases)
    (addOns : AddOns) (trace : Option String) :
    resolve text addOns trace =
      ⟨.ok (Request.configure ⟨level, addOns⟩ {}),
        trace.map (· ++ Request.trace ⟨level, addOns⟩)⟩ := by
  simp only [resolve, Level.ofAlias?_eq_some_iff.2 h, Request.options_run, Request.trace_run]

/-- A text that spells no level gives an error about that text and nothing for the trace. -/
theorem resolve_of_ofAlias?_eq_none {text : String} (h : Level.ofAlias? text = none)
    (addOns : AddOns) (trace : Option String) :
    resolve text addOns trace = ⟨.error ⟨text⟩, trace⟩ := by
  simp only [resolve, h]

end OptionPresets
