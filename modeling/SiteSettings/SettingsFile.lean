import SiteSettings.Error
import SiteSettings.Generator
import SiteSettings.Php.Printer

/-!
# The generated settings file

The settings file is the template with the include guard and the assignments after it.
-/

namespace SiteSettings
namespace SettingsFile

/-- A document with the include guard and the assignments after it, and how many there are. -/
def complete (settings : SettingsMap) (doc : Php.Document) (options : GeneratorOptions) :
    Except SettingError (Php.Document × Nat) :=
  Generator.addSettings options settings (Generator.addIncludeGuard options doc)

/-- The text of a completed document, and the number of assignments in it. -/
def ofDocument (settings : SettingsMap) (doc : Php.Document) (options : GeneratorOptions) :
    Except ProjectError (String × Nat) := do
  let (doc, count) ← (complete settings doc options).mapError .setting
  match doc.print? options.indent with
  | some text => .ok (text, count)
  | none => .error .marginTooLong

/-- The text of the settings file, and the number of assignments in it.  A template that is not
valid is found before a setting that has no code, and that before a margin that is too long. -/
def source (settings : SettingsMap) (template : String) (options : GeneratorOptions) :
    Except ProjectError (String × Nat) := do
  let doc ← (Php.Document.ofTemplate template).mapError .template
  ofDocument settings doc options

end SettingsFile
end SiteSettings
