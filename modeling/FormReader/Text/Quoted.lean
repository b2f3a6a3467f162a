import FormReader.Text.Printable

/-! # Quoted texts — how a text is shown

    A text between quotes, as the structural view of a tree and the messages
    show it.  The quote is an apostrophe, unless the text holds an apostrophe
    and no double quote.

    The quote in use and the backslash get a backslash in front; line feed,
    carriage return and tab have letters; every other code point that is not
    printable is written in hexadecimal, with as many digits as its size asks
    for. -/

namespace FormReader

namespace Text

/-- The quote that a text is written between. -/
def quoteFor (t : Text) : CodePoint :=
  if t.contains ('\x27' : CodePoint) && !t.contains ('\x22' : CodePoint) then '\x22' else '\x27'

/-- One code point between quotes. -/
def quotedForm (quote c : CodePoint) : Text :=
  if c = quote || c = '\\' then ['\\', c]
  else if c = '\n' then .of "\\n"
  else if c = '\r' then .of "\\r"
  else if c = '\t' then .of "\\t"
  else if c.isPrintable then [c]
  else if c.val < 0x100 then .of "\\x" ++ .hex 2 c.val
  else if c.val < 0x10000 then .of "\\u" ++ .hex 4 c.val
  else .of "\\U" ++ .hex 8 c.val

/-- The text between quotes. -/
def quoted (t : Text) : Text :=
  let quote := t.quoteFor
  quote :: t.flatMap (quotedForm quote) ++ [quote]

end Text

end FormReader
