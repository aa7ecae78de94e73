import Scaffold.Inflection.Rule

/-!
The English words and rules. Rules stand in the order in which they are tried, the special ones
before the general ones. A word pair counts for both directions; of two pairs that share a word
the later one counts.
-/
namespace Scaffold
namespace Inflection
namespace English

def irregular : List (String × String) :=
  [("i", "we"), ("me", "us"), ("he", "they"), ("she", "they"), ("them", "them"),
   ("myself", "ourselves"), ("yourself", "yourselves"), ("itself", "themselves"),
   ("herself", "themselves"), ("himself", "themselves"), ("themself", "themselves"),
   ("is", "are"), ("was", "were"), ("has", "have"), ("this", "these"), ("that", "those"),
   ("echo", "echoes"), ("dingo", "dingoes"), ("volcano", "volcanoes"), ("tornado", "tornadoes"),
   ("torpedo", "torpedoes"), ("genus", "genera"), ("viscus", "viscera"), ("stigma", "stigmata"),
   ("stoma", "stomata"), ("dogma", "dogmata"), ("lemma", "lemmata"), ("schema", "schemata"),
   ("anathema", "anathemata"), ("ox", "oxen"), ("axe", "axes"), ("die", "dice"),
   ("yes", "yeses"), ("foot", "feet"), ("eave", "eaves"), ("goose", "geese"),
   ("tooth", "teeth"), ("quiz", "quizzes"), ("human", "humans"), ("proof", "proofs"),
   ("carve", "carves"), ("valve", "valves"), ("looey", "looies"), ("thief", "thieves"),
   ("groove", "grooves"), ("pickaxe", "pickaxes"), ("passerby", "passersby")]

def uncountable : List String :=
  ["adulthood", "advice", "agenda", "aid", "aircraft", "alcohol", "ammo", "analytics", "anime",
   "athletics", "audio", "bison", "blood", "bream", "buffalo", "butter", "carp", "cash",
   "chassis", "chess", "clothing", "cod", "commerce", "cooperation", "corps", "debris",
   "diabetes", "digestion", "elk", "energy", "equipment", "excretion", "expertise", "firmware",
   "flounder", "fun", "gallows", "garbage", "graffiti", "hardware", "headquarters", "health",
   "herpes", "highjinks", "homework", "housework", "information", "jeans", "justice", "kudos",
   "labour", "literature", "machinery", "mackerel", "mail", "media", "mews", "moose", "music",
   "mud", "manga", "news", "only", "personnel", "pike", "plankton", "pliers", "police",
   "pollution", "premises", "rain", "research", "rice", "salmon", "scissors", "series", "sewage",
   "shambles", "shrimp", "software", "species", "staff", "swine", "tennis", "traffic",
   "transportation", "trout", "tuna", "wealth", "welfare", "whiting", "wildebeest", "wildlife",
   "you"]

def stemsAt (lead : Lead) (words : List String) : List Stem :=
  words.map fun word => ⟨lead, word.toList⟩

def stems (words : List String) : List Stem := stemsAt .anywhere words

def noneOf (letters word : String) : Stem := ⟨.noneOf letters.toList, word.toList⟩

/-- The rule that keeps a stem, drops one of some endings and adds another. -/
def rule (stems : List Stem) (dropped : List String) (added : String) : Rule :=
  ⟨stems, dropped.map String.toList, added.toList⟩

def unchanged (stems : List Stem) : Rule := ⟨stems, [[]], []⟩

def uncountableRules : List Rule :=
  [unchanged (stems ["sheep"]),
   unchanged (stems ["pox"]),
   unchanged (stems ["ois", "ous"]),
   unchanged (stems ["measles"]),
   unchanged (stems ["fish"]),
   unchanged (stems ["deer"]),
   unchanged [noneOf "aeiou" "ese"],
   unchanged (stems ["pokemon", "pokémon"])]

def pluralRules : List Rule :=
  uncountableRules ++
  [rule (stemsAt .textStart [""]) ["thou"] "you",
   rule (stems [""]) ["man", "men"] "men",
   unchanged (stems ["eaux"]),
   rule (stems ["child"]) ["ren", ""] "ren",
   rule (stems ["pe"]) ["rson", "ople"] "ople",
   rule (stemsAt .wordStart ["titm", "m", "l"]) ["ice", "ouse"] "ice",
   rule (stems ["matr", "cod", "mur", "sil", "vert", "ind", "append"]) ["ix", "ex"] "ices",
   rule (stems ["x", "ch", "ss", "sh", "zz"]) [""] "es",
   rule (["il", "in", "el", "en", "ol", "on"].map (noneOf "ch")) ["ey"] "ies",
   rule (noneOf "aeiouy" "" :: stems ["qu"]) ["y"] "ies",
   rule (stems ["ar", "l", "ea", "eo", "oa", "hoo"]) ["f"] "ves",
   rule (stems ["kni", "wi", "li"]) ["fe"] "ves",
   rule (stems [""]) ["sis"] "ses",
   rule (stems ["apheli", "hyperbat", "periheli", "asyndet", "noumen", "phenomen", "criteri",
     "organ", "prolegomen", "hedr", "automat"]) ["a", "on"] "a",
   rule (stems ["agend", "addend", "millenni", "dat", "extrem", "bacteri", "desiderat", "strat",
     "candelabr", "errat", "ov", "symposi", "curricul", "automat", "quor"]) ["a", "um"] "a",
   rule (stems ["her", "at", "gr"]) ["o"] "oes",
   rule (stems ["seraph", "cherub"]) ["im", ""] "im",
   rule (stems ["alumn", "alg", "vertebr"]) ["a", "ae"] "ae",
   rule (stems ["alumn", "syllab", "vir", "radi", "nucle", "fung", "cact", "stimul", "termin",
     "bacill", "foc", "uter", "loc", "strat"]) ["us", "i"] "i",
   unchanged (noneOf "l" "ias" :: stems ["alas", "elas", "ilas", "olas", "ulas", "eas", "jas",
     "zas", "ras", "iam", "uam"]),
   rule (stems ["emu", "enu"]) ["s", ""] "s",
   rule (stems ["alias"] ++ noneOf "aou" "us" :: stems ["tlas", "tmas", "gas", "ris"]) [""] "es",
   rule (stems ["ax", "test"]) ["is"] "es",
   unchanged [noneOf "aeiou" "ese"],
   unchanged (stemsAt .notAscii [""]),
   rule (stems [""]) ["s", ""] "s"]

def singularRules : List Rule :=
  uncountableRules ++
  [rule (stems [""]) ["men"] "man",
   rule (stems ["eau"]) ["x", ""] "",
   rule (stems ["child"]) ["ren"] "",
   rule (stems ["pe"]) ["rson", "ople"] "rson",
   rule (stems ["matr", "append"]) ["ices"] "ix",
   rule (stems ["cod", "mur", "sil", "vert", "ind"]) ["ices"] "ex",
   rule (stems ["alumn", "alg", "vertebr"]) ["ae"] "a",
   rule (stems ["apheli", "hyperbat", "periheli", "asyndet", "noumen", "phenomen", "criteri",
     "organ", "prolegomen", "hedr", "automat"]) ["a"] "on",
   rule (stems ["agend", "addend", "millenni", "dat", "extrem", "bacteri", "desiderat", "strat",
     "candelabr", "errat", "ov", "symposi", "curricul", "quor"]) ["a"] "um",
   rule (stems ["alumn", "syllab", "vir", "radi", "nucle", "fung", "cact", "stimul", "termin",
     "bacill", "foc", "uter", "loc", "strat"]) ["us", "i"] "us",
   rule (stems ["test"]) ["is", "es"] "is",
   rule (stems ["movie", "twelve", "abuse", "emu", "enu"]) ["s"] "",
   rule (stems ["analy", "diagno", "parenthe", "progno", "synop", "the", "empha", "cri", "ne"])
     ["sis", "ses"] "sis",
   rule (stems ["x", "ch", "ss", "sh", "zz", "tto", "go", "cho", "alias"] ++ noneOf "aou" "us" ::
     stems ["tlas", "tmas", "gas", "hero", "ato", "gro", "aris", "eris", "iris", "oris", "uris"])
     ["es", ""] "",
   rule (stems ["seraph", "cherub"]) ["im"] "",
   rule (stemsAt .wordStart ["titm", "m", "l"]) ["ice"] "ouse",
   rule (stemsAt .wordStart ["mon", "smil"]) ["ies"] "ey",
   rule (stemsAt .wordStart ["p", "l", "zomb", "neckt", "crosst", "t", "coll", "faer", "food",
     "gen", "goon", "group", "lass", "talk", "goal", "cut"]) ["ies"] "ie",
   rule (stems [""]) ["ies"] "y",
   rule (stems ["ar", "wol", "al", "el", "ea", "eo", "oa", "oo"]) ["ves"] "f",
   rule (stems ["wi", "kni", "afterli", "halfli", "highli", "lowli", "midli", "nonli", "nightli"] ++
     stemsAt .notWordChar ["li"] ++ stemsAt .textStart ["li"]) ["ves"] "fe",
   unchanged (stems ["ss"]),
   rule (stems [""]) ["s"] ""]

end English
end Inflection
end Scaffold
