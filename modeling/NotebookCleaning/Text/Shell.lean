/-!
# Words of a shell command

`quote` writes one word so that a POSIX shell reads it back as it is: a word of plain characters
stands as it is, any other stands between single quotes, and a single quote is closed, escaped and
opened again. `command` puts a list of words on one line.
-/

namespace NotebookCleaning.Shell

/-- The characters that need no quoting. -/
def isPlain (c : Char) : Bool := c.isAlphanum || "-_./:=@+,".toList.contains c

def quoteChar (c : Char) : List Char := if c = '\'' then ['\'', '\\', '\'', '\''] else [c]

def quoteChars (cs : List Char) : List Char :=
  if !cs.isEmpty && cs.all isPlain then cs else '\'' :: cs.flatMap quoteChar ++ ['\'']

def quote (word : String) : String := String.ofList (quoteChars word.toList)

def command (words : List String) : String := " ".intercalate (words.map quote)

end NotebookCleaning.Shell
