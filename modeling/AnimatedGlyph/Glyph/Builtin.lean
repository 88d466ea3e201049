/-
The glyphs that every table starts with.

Each entry is a name and the text of its code, in ascending order of the names.
-/

namespace AnimatedGlyph

/-- The names of the built-in glyphs with their codes. -/
def builtinGlyphs : List (String × String) :=
  [("abandon", "5a8732"), ("adapt", "a76"), ("advance", "580"), ("again", "9a87a6"),
   ("all", "0123450"), ("answer", "9a67"), ("attack", "598a71"), ("avoid", "5967a1"),
   ("balance", "0a3"), ("barrier", "0a72"), ("before", "069a"), ("begin", "0a97"),
   ("body", "69a6"), ("breathe", "59a61"), ("capture", "1698a72"), ("change", "9a62"),
   ("chaos", "05987a612"), ("clear", "0a3"), ("complex", "9a8"), ("conflict", "5976a2"),
   ("courage", "59a7"), ("create", "498a67"), ("danger", "0967"), ("defend", "0678"),
   ("destroy", "59a72"), ("die", "4a72"), ("discover", "5094"), ("easy", "8a61"), ("end", "6a9"),
   ("equal", "9687"), ("escape", "59a61"), ("fear", "9a6"), ("follow", "4961"),
   ("future", "6712"), ("gain", "9a7"), ("harmony", "49a72"), ("help", "59a721"), ("hide", "986"),
   ("human", "6a98"), ("idea", "597a8"), ("journey", "594a72"), ("knowledge", "3a798"),
   ("lead", "40"), ("less", "986"), ("liberate", "4a61"), ("lose", "278"), ("mind", "8a976"),
   ("more", "8a7"), ("nature", "49a76"), ("new", "672"), ("open", "8a7"), ("past", "5984"),
   ("path", "40a3"), ("peace", "89a67"), ("portal", "05987612"), ("pure", "0a8"),
   ("question", "0a3a7"), ("recharge", "0a671"), ("resist", "59a87"), ("save", "8a76"),
   ("search", "5a97"), ("see", "1a"), ("self", "4a6"), ("simple", "87"), ("soul", "59a7"),
   ("strong", "9867"), ("struggle", "598a"), ("together", "5967a"), ("truth", "049"),
   ("victory", "59a61"), ("want", "2a87"), ("we", "5a1"), ("xm", "96798"), ("you", "6a31")]

end AnimatedGlyph
