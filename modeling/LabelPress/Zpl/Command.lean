/-!
The token syntax of ZPL: a format command is a caret, a mnemonic and a comma-separated parameter
list. An empty parameter keeps its place, because the printer then takes its own default for that
slot. Field data is forwarded as it is.
-/

namespace LabelPress.Zpl

namespace Mnemonic

def startFormat := "XA"
def endFormat := "XZ"
def fieldData := "FD"
def fieldSeparator := "FS"
def fieldOrigin := "FO"
def fieldTypeset := "FT"
def qrCode := "BQ"
def printWidth := "PW"
def labelLength := "LL"
def changeFont := "CF"
def printMode := "MM"
def graphicBox := "GB"
/-- The font name follows this letter directly, as the first parameter. -/
def font := "A"

end Mnemonic

def parameter (n : Int) : String := toString n

def parameter? : Option Int32 → String
  | some n => parameter n.toInt
  | none => ""

def command (mnemonic : String) (parameters : List String) : String :=
  "^" ++ mnemonic ++ ",".intercalate parameters

def commandLine (mnemonic : String) (parameters : List String) : String :=
  command mnemonic parameters ++ "\n"

/-- Nothing in the text is escaped: a caret in it starts a new command on the printer. -/
def fieldData (text : String) : String := command Mnemonic.fieldData [] ++ text

def fieldSeparator : String := commandLine Mnemonic.fieldSeparator []

def startFormat : String := commandLine Mnemonic.startFormat []

def endFormat : String := commandLine Mnemonic.endFormat []

end LabelPress.Zpl
