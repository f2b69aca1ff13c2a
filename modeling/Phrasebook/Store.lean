import Phrasebook.Catalog

/-!
# Stores

A store holds the catalogs of every locale and namespace. A single text is stored flat under its
whole name; a catalog replaces the one that its namespace had.
-/

namespace Phrasebook

abbrev Store := Dictionary (Dictionary Catalog)

namespace Store

def catalog? (s : Store) (locale space : String) : Option Catalog :=
  (Dictionary.find? locale s).bind (Dictionary.find? space)

def get (s : Store) (locale space name : String) : Option String :=
  (s.catalog? locale space).bind (Catalog.find? · name)

def has (s : Store) (locale space name : String) : Bool :=
  (s.get locale space name).isSome

def setCatalog (s : Store) (locale space : String) (c : Catalog) : Store :=
  Dictionary.insert locale
    (Dictionary.insert space c ((Dictionary.find? locale s).getD [])) s

/-- Stores one text under its whole name. -/
def set (s : Store) (locale space name text : String) : Store :=
  s.setCatalog locale space
    (Dictionary.insert name (.text text) ((s.catalog? locale space).getD []))

def catalogs? (s : Store) (locale : String) : Option (Dictionary Catalog) :=
  Dictionary.find? locale s

/-- The locales with at least one namespace, in ascending order. -/
def locales (s : Store) : List String :=
  s.map (·.1)

end Store

end Phrasebook
