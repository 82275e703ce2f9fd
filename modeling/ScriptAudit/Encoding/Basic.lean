import ScriptAudit.Encoding.CodePage
import ScriptAudit.Encoding.Wide

namespace ScriptAudit

/-- Ways to write text as bytes. -/
inductive Encoding where
  | ascii
  | page (page : CodePage)
  | utf8
  | utf8Marked
  | utf16
  | utf16Little
  | utf16Big
  | utf32
  | utf32Little
  | utf32Big
  deriving DecidableEq, Repr

namespace Encoding

def names : Encoding → List String
  | ascii => ["ascii", "us_ascii", "646", "us", "ansi_x3_4_1968", "ansi_x3_4_1986", "cp367", "csascii", "ibm367",
      "iso646_us", "iso_646_irv_1991", "iso_ir_6"]
  | page p => p.names
  | utf8 => ["utf_8", "utf8", "u8", "utf", "utf8_ucs2", "utf8_ucs4", "cp65001"]
  | utf8Marked => ["utf_8_sig"]
  | utf16 => ["utf_16", "utf16", "u16"]
  | utf16Little => ["utf_16_le", "utf_16le", "unicodelittleunmarked"]
  | utf16Big => ["utf_16_be", "utf_16be", "unicodebigunmarked"]
  | utf32 => ["utf_32", "utf32", "u32"]
  | utf32Little => ["utf_32_le", "utf_32le"]
  | utf32Big => ["utf_32_be", "utf_32be"]

def all : List Encoding :=
  [.ascii, .utf8, .utf8Marked, .utf16, .utf16Little, .utf16Big, .utf32, .utf32Little, .utf32Big] ++
    CodePage.all.map .page

/-- Runs of letters and digits in lower case; whatever stands between two of them becomes one underscore. -/
def nameKey (name : List Char) : List Char :=
  let (key, _) := name.foldl (fun (key, gap) c =>
    if c.isAlphanum then ((if gap && !key.isEmpty then c.toLower :: '_' :: key else c.toLower :: key), false)
    else (key, true)) ([], false)
  key.reverse

def ofName? (name : String) : Option Encoding :=
  all.find? fun e => e.names.contains (String.ofList (nameKey name.toList))

/-- The text of bytes in an encoding, if they are right in it. -/
def decode? (e : Encoding) (data : Bytes) : Option (List Char) :=
  match e with
  | ascii => data.mapM fun b => if b < 0x80 then some (Char.ofNat b.toNat) else none
  | page p => data.mapM p.char?
  | utf8 => (Utf8.decode data).toOption
  | utf8Marked => (Utf8.decode (Utf8.withoutMark data)).toOption
  | utf16 => Wide.decodeMarked16? data
  | utf16Little => Wide.decode16? false data
  | utf16Big => Wide.decode16? true data
  | utf32 => Wide.decodeMarked32? data
  | utf32Little => Wide.decode32? false data
  | utf32Big => Wide.decode32? true data

end Encoding

end ScriptAudit
