import LanguageClient.Path

namespace LanguageClient.Uri

def isAsciiLetter (c : Char) : Bool := ('a' ≤ c && c ≤ 'z') || ('A' ≤ c && c ≤ 'Z')

def toSlash (c : Char) : Char := if c = '\\' then '/' else c

def escapeSpace (c : Char) : List Char := if c = ' ' then ['%', '2', '0'] else [c]

def scheme : List Char := "file://".toList

/-- The characters with the scheme in front, unless it is there already. A drive letter is written
in upper case behind the empty authority. -/
def withScheme : List Char → List Char
  | drive :: ':' :: rest =>
    if isAsciiLetter drive then scheme ++ '/' :: drive.toUpper :: ':' :: rest
    else if scheme.isPrefixOf (drive :: ':' :: rest) then drive :: ':' :: rest
    else scheme ++ drive :: ':' :: rest
  | cs => if scheme.isPrefixOf cs then cs else scheme ++ cs

/-- The `file` URI of a path's text. Backslashes count as slashes, and only spaces are escaped. -/
def ofText (text : String) : String :=
  String.ofList ((withScheme (text.toList.map toSlash)).flatMap escapeSpace)

def ofPath (p : Path) : String := ofText p.text

end LanguageClient.Uri
