import TorrentRemote.Value.Convert

/-!
# Settings

What a request can change, under which names, and what form each setting is brought into before it
is kept.
-/

namespace TorrentRemote

/-- How the arguments of a setting become its value. -/
inductive Intake where
  | asGiven
  /-- A list of its items. -/
  | copied
  /-- A list of all the values given. -/
  | gathered
  | fileIndices
  | member (domain : Domain)
  | content
  deriving DecidableEq

namespace Intake

/-- An index is an integer that is not negative and no flag. -/
def isFileIndex (v : Value) : Bool :=
  match v.int? with
  | some n => 0 ≤ n
  | none => false

def toFileIndices (v : Value) : Except Failure Value := do
  let items ← v.toItems
  match items.find? fun item => !isFileIndex item with
  | some item => .error (.showing item (.fileIndex item.quoted))
  | none => return .list items

/-- The value to keep for the values given; all but `gathered` look at the first one. -/
def take (intake : Intake) (given : List Value) : Except Failure Value :=
  let v := given.headD .null
  match intake with
  | .asGiven => .ok v
  | .copied => v.toItems.map .list
  | .gathered => .ok (.list given)
  | .fileIndices => toFileIndices v
  | .member domain => (v.toMember domain).map .member
  | .content => v.toBytes.map .bytes

end Intake

structure Setting where
  label : Label
  intake : Intake

namespace Setting

def plain (name wire : String) : Setting := ⟨⟨name, wire⟩, .asGiven⟩

def files (name wire : String) : Setting := ⟨⟨name, wire⟩, .fileIndices⟩

def ofTorrent : List Setting := [
  plain "bandwidth_priority" "bandwidthPriority",
  plain "download_limit" "downloadLimit",
  plain "download_limited" "downloadLimited",
  files "files_wanted" "files-wanted",
  files "files_unwanted" "files-unwanted",
  plain "honors_session_limits" "honorsSessionLimits",
  ⟨⟨"labels", "labels"⟩, .copied⟩,
  plain "location" "location",
  plain "peer_limit" "peer-limit",
  files "priority_high" "priority-high",
  files "priority_low" "priority-low",
  files "priority_normal" "priority-normal",
  plain "queue_position" "queuePosition",
  plain "seed_idle_limit" "seedIdleLimit",
  ⟨⟨"seed_idle_mode", "seedIdleMode"⟩, .member .mode⟩,
  plain "seed_ratio_limit" "seedRatioLimit",
  ⟨⟨"seed_ratio_mode", "seedRatioMode"⟩, .member .mode⟩,
  ⟨⟨"tracker_add", "trackerAdd"⟩, .gathered⟩,
  ⟨⟨"tracker_remove", "trackerRemove"⟩, .gathered⟩,
  ⟨⟨"tracker_replace", "trackerReplace"⟩, .gathered⟩,
  plain "upload_limit" "uploadLimit",
  plain "upload_limited" "uploadLimited"]

def ofNewTorrent : List Setting := [
  plain "cookies" "cookies",
  plain "download_dir" "download-dir",
  plain "filename" "filename",
  ⟨⟨"labels", "labels"⟩, .copied⟩,
  ⟨⟨"metainfo", "metainfo"⟩, .content⟩,
  plain "paused" "paused",
  plain "peer_limit" "peer-limit",
  plain "bandwidth_priority" "bandwidthPriority",
  files "files_wanted" "files-wanted",
  files "files_unwanted" "files-unwanted",
  files "priority_high" "priority-high",
  files "priority_low" "priority-low",
  files "priority_normal" "priority-normal"]

def ofSession : List Setting := [
  plain "alt_speed_down" "alt-speed-down",
  plain "alt_speed_enabled" "alt-speed-enabled",
  plain "alt_speed_time_begin" "alt-speed-time-begin",
  plain "alt_speed_time_enabled" "alt-speed-time-enabled",
  plain "alt_speed_time_end" "alt-speed-time-end",
  plain "alt_speed_time_day" "alt-speed-time-day",
  plain "alt_speed_up" "alt-speed-up",
  plain "blocklist_url" "blocklist-url",
  plain "blocklist_enabled" "blocklist-enabled",
  plain "cache_size_mb" "cache-size-mb",
  plain "download_dir" "download-dir",
  plain "download_queue_size" "download-queue-size",
  plain "download_queue_enabled" "download-queue-enabled",
  plain "dht_enabled" "dht-enabled",
  ⟨⟨"encryption", "encryption"⟩, .member .encryption⟩,
  plain "idle_seeding_limit" "idle-seeding-limit",
  plain "idle_seeding_limit_enabled" "idle-seeding-limit-enabled",
  plain "incomplete_dir" "incomplete-dir",
  plain "incomplete_dir_enabled" "incomplete-dir-enabled",
  plain "lpd_enabled" "lpd-enabled",
  plain "peer_limit_global" "peer-limit-global",
  plain "peer_limit_per_torrent" "peer-limit-per-torrent",
  plain "pex_enabled" "pex-enabled",
  plain "peer_port" "peer-port",
  plain "peer_port_random_on_start" "peer-port-random-on-start",
  plain "port_forwarding_enabled" "port-forwarding-enabled",
  plain "queue_stalled_enabled" "queue-stalled-enabled",
  plain "queue_stalled_minutes" "queue-stalled-minutes",
  plain "rename_partial_files" "rename-partial-files",
  plain "script_torrent_done_filename" "script-torrent-done-filename",
  plain "script_torrent_done_enabled" "script-torrent-done-enabled",
  plain "seed_ratio_limit" "seedRatioLimit",
  plain "seed_ratio_limited" "seedRatioLimited",
  plain "seed_queue_size" "seed-queue-size",
  plain "seed_queue_enabled" "seed-queue-enabled",
  plain "speed_limit_down" "speed-limit-down",
  plain "speed_limit_down_enabled" "speed-limit-down-enabled",
  plain "speed_limit_up" "speed-limit-up",
  plain "speed_limit_up_enabled" "speed-limit-up-enabled",
  plain "start_added_torrents" "start-added-torrents",
  plain "trash_original_torrent_files" "trash-original-torrent-files",
  plain "units" "units",
  plain "utp_enabled" "utp-enabled"]

end Setting

end TorrentRemote
