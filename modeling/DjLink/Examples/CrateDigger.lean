import DjLink.Library.ListCursor

/-!
The database of a rekordbox export, as far as the viewers see it. The library
that reads it is not in the repository: an open database is what its queries
return, and opening one gives a database or the text of an error.
-/

namespace DjLink

namespace CrateDigger

abbrev TrackId := UInt32
abbrev ArtistId := UInt32
abbrev AlbumId := UInt32
abbrev GenreId := UInt32
abbrev KeyId := UInt32
abbrev LabelId := UInt32
abbrev ColorId := UInt32
abbrev ArtworkId := UInt32
abbrev PlaylistId := UInt32
abbrev TagId := UInt32

structure TrackRow where
  title : String
  artistId : ArtistId
  albumId : AlbumId
  genreId : GenreId
  keyId : KeyId
  labelId : LabelId
  colorId : ColorId
  artworkId : ArtworkId
  durationSeconds : UInt32
  deriving Inhabited

structure CuePoint where
  timeMs : UInt32
  loopTimeMs : UInt32
  isLoop : Bool
  deriving Inhabited

structure Database where
  allTrackIds : List TrackId := []
  allArtistIds : List ArtistId := []
  allAlbumIds : List AlbumId := []
  allGenreIds : List GenreId := []
  allKeyIds : List KeyId := []
  allPlaylistIds : List PlaylistId := []
  allCategoryIds : List TagId := []
  getTrack : TrackId → Option TrackRow := fun _ => none
  /-- The name of a key, and so on. -/
  getKey : KeyId → Option String := fun _ => none
  getArtist : ArtistId → Option String := fun _ => none
  getAlbum : AlbumId → Option String := fun _ => none
  getGenre : GenreId → Option String := fun _ => none
  getLabel : LabelId → Option String := fun _ => none
  getColor : ColorId → Option String := fun _ => none
  /-- The path of an artwork. -/
  getArtwork : ArtworkId → Option String := fun _ => none
  getCuePointsForTrack : TrackId → List CuePoint := fun _ => []
  getPlaylist : PlaylistId → Option (List TrackId) := fun _ => none
  getTagsInCategory : TagId → List TagId := fun _ => []
  findTracksByTag : TagId → List TrackId := fun _ => []
  findTracksByBpmRange : Int → Int → List TrackId := fun _ _ => []

/-- What comes of a path that is dropped on one of the viewers of a whole
export: there is no file, it cannot be opened, or it is open, and the folder of
the analysis files is next to it or not. Where it is, the database is the one
after `load_cue_points`. -/
inductive Dropped where
  | notFound (path : String)
  | failed (message : String)
  | opened (database : Database) (anlz : Bool)

end CrateDigger

end DjLink
