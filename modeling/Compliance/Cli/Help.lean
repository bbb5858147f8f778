import Compliance.Cli.Command
import Compliance.Text.Columns

/-!
# Help texts

What the program prints about itself.  Descriptions stand in a column behind the
longest flag and are broken into lines of a fixed width.
-/

namespace Compliance.Cli

def programName : String := "cts-harness"

def versionText : String := programName ++ " 0.1.0\n"

def helpWidth : Nat := 100

namespace Flag

/-- The name of the value a flag takes. -/
def valueName (f : Flag) : String :=
  f.name.map fun c => if c = '-' then '_' else c.toUpper

/-- The long name with the value it takes. -/
def long (f : Flag) : String :=
  "--" ++ f.name ++ (if f.kind.takesValue then " <" ++ f.valueName ++ ">" else "")

def described (f : Flag) : String :=
  f.about ++ (match f.standard with
    | some value => " [default: " ++ value ++ "]"
    | none => "")

/-- The line of a flag when the longest name has the given length. -/
def row (longest : Nat) (f : Flag) : String :=
  let letter := match f.letter with
    | some c => String.ofList ['-', c, ',', ' ']
    | none => "    "
  let indent := longest + 8
  "  " ++ letter ++ Text.padRight longest f.long ++ "  " ++
    ("\n" ++ Text.spaces indent).intercalate
      (Text.linesOf (helpWidth - indent) f.described)

end Flag

def optionsSection (flags : List Flag) : String :=
  let longest := (flags.map fun f => f.long.length).foldl max 0
  "Options:\n" ++ "\n".intercalate (flags.map (Flag.row longest)) ++ "\n"

def helpAbout : String :=
  "Print this message or the help of the given subcommand(s)"

def commandsSection : String :=
  "Commands:\n" ++ "\n".intercalate
    ((CommandName.all.map fun n => (n.wire, n.about)) ++ [("help", helpAbout)]
      |>.map fun (name, about) => "  " ++ Text.padRight 6 name ++ "  " ++ about) ++
    "\n"

/-- The usage line of a command, with the flags it cannot do without. -/
def CommandName.usage (n : CommandName) : String :=
  let needed := n.flags.filter fun f => n.required.contains f.name
  " ".intercalate ([programName, n.wire, "[OPTIONS]"] ++ needed.map Flag.long)

def page (about usage sections : String) : String :=
  about ++ "\n\nUsage: " ++ usage ++ "\n\n" ++ sections

def Topic.text : Topic → String
  | program =>
      page "Device capability compliance test harness"
        (programName ++ " [OPTIONS] <COMMAND>")
        (commandsSection ++ "\n" ++ optionsSection programFlags)
  | command n => page n.about n.usage (optionsSection n.flags)
  | help =>
      page helpAbout (programName ++ " help [COMMAND]...")
        "Arguments:\n  [COMMAND]...  Print help for the subcommand(s)\n"

example : (CommandName.run).usage =
    "cts-harness run [OPTIONS] --suite <SUITE> --device <DEVICE>" := by
  decide +kernel

end Compliance.Cli
