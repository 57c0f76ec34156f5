import RecordFilter.Comparison

/-! The reference of symbols and notation that the command line prints. -/

namespace RecordFilter.Reference

def column (symbol : Text) : Text := symbol ++ List.replicate (4 - symbol.length) ' '

def comparisonLine (comparison : Comparison) : Text :=
  ' ' :: ' ' :: column comparison.symbol ++ comparison.description ++ ['\n']

def heading : Text := "ROWFILTER OPERATORS\n\nComparison (field<op>literal):\n".toList

def notes : Text :=
  ("\nConnectives:\n"
    ++ "  &   AND, binds tighter than |\n"
    ++ "  |   OR\n"
    ++ "\n"
    ++ "Fields are dotted paths (user.address.city, items.0.sku). Missing and null\n"
    ++ "fields compare as the empty string, so `field==` matches them.\n"
    ++ "\n"
    ++ "  echo '\x7b\"a\": \"b\", \"c\": \"d\"\x7d' | rowfilter check 'a==b&c==d'\n"
    ++ "  => true\n"
    ++ "\n"
    ++ "  echo '[\x7b\"n\": 5\x7d, \x7b\"n\": 12\x7d]' | rowfilter check 'n>10'\n"
    ++ "  => [\x7b\"n\":12\x7d]\n"
    ++ "\n"
    ++ "Literals cannot contain & or |, and there is no grouping syntax.\n").toList

def text : Text := heading ++ Comparison.all.flatMap comparisonLine ++ notes

end RecordFilter.Reference
