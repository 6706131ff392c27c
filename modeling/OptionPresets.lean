import OptionPresets.Main
import OptionPresets.Preset.Trace
import OptionPresets.Preset.Writes
import OptionPresets.Proofs.CommandLine.Meaning
import OptionPresets.Proofs.CommandLine.Printed
import OptionPresets.Proofs.CommandLine.Answer
import OptionPresets.Proofs.CommandLine.Rearrangement
import OptionPresets.Proofs.Options.Faithful
import OptionPresets.Proofs.Preset.LastWriter
import OptionPresets.Proofs.Preset.Order
import OptionPresets.Proofs.Preset.Overwrite
import OptionPresets.Proofs.Preset.Profile
import OptionPresets.Proofs.Preset.Reachable
import OptionPresets.Proofs.CommandLine.Concatenation
import OptionPresets.Proofs.Options.ReadBack
import OptionPresets.Proofs.Preset.Spelling
import OptionPresets.Proofs.CommandLine.LevelForms
import OptionPresets.Proofs.CommandLine.OutputFlags
import OptionPresets.Proofs.Preset.Accumulation
import OptionPresets.Proofs.Preset.Strength
import OptionPresets.Proofs.Preset.Replay
import OptionPresets.CommandLine.Word
import OptionPresets.Proofs.CommandLine.Suffixes
import OptionPresets.Proofs.CommandLine.Reading
import OptionPresets.Proofs.CommandLine.Turns
import OptionPresets.Proofs.Diagnostic.History
